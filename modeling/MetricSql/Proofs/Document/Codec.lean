import MetricSql.Manifest.Codec
import MetricSql.Profile.Codec
import MetricSql.Proofs.Plan.Session
import MetricSql.Request.Codec

/-!
# Documents are read back

Manifests, requests and profiles are written as JSON values, and what is written is read back as it was.  Two things
limit this: JSON has no numbers that are not finite, and the reader enters only so many containers, one in another.
A decoder is given the number of containers it may enter, so every statement here is about a value that is no deeper
than that.
-/

namespace MetricSql

namespace Document

/-! ## Depth -/

mutual

/-- How many containers lie in each other. -/
def Value.depth : Value → Nat
  | .list items => itemsDepth items + 1
  | .record fields => fieldsDepth fields + 1
  | _ => 0

def itemsDepth : List Value → Nat
  | [] => 0
  | item :: rest => max item.depth (itemsDepth rest)

def fieldsDepth : List (String × Value) → Nat
  | [] => 0
  | (_, value) :: rest => max value.depth (fieldsDepth rest)

end

attribute [local simp] Value.depth itemsDepth fieldsDepth

theorem itemsDepth_le_iff {items : List Value} {n : Nat} :
    itemsDepth items ≤ n ↔ ∀ item ∈ items, item.depth ≤ n := by
  induction items with
  | nil => simp
  | cons item rest ih => simp [ih]

theorem fieldsDepth_le_iff {fields : List (String × Value)} {n : Nat} :
    fieldsDepth fields ≤ n ↔ ∀ field ∈ fields, field.2.depth ≤ n := by
  induction fields with
  | nil => simp
  | cons field rest ih => simp [ih]

theorem depth_list_le_iff {items : List Value} {n : Nat} :
    (Value.list items).depth ≤ n + 1 ↔ ∀ item ∈ items, item.depth ≤ n := by
  rw [Value.depth, Nat.add_le_add_iff_right, itemsDepth_le_iff]

theorem depth_present_le_iff {slots : List (Option (String × Value))} {n : Nat} :
    (Value.present slots).depth ≤ n + 1 ↔ ∀ field ∈ slots.filterMap id, field.2.depth ≤ n := by
  rw [Value.present, Value.depth, Nat.add_le_add_iff_right, fieldsDepth_le_iff]

theorem exists_succ_of_depth
    {fields : List (String × Value)} {room : Nat} (h : (Value.record fields).depth ≤ room) :
    ∃ inner, room = inner + 1 := by
  rw [Value.depth] at h
  exact Nat.exists_eq_add_of_le' (Nat.le_of_add_left_le h)

theorem depth_tagged (tag : String) (content : Value) :
    (Value.tagged tag content).depth = content.depth + 1 := by
  simp [Value.tagged]

/-! ## Lists and choices -/

variable {α : Type}

/-- What is written for a value is read back, where there is room for it. -/
def RoundTrips (decode : Decoder α) (encode : α → Value) (a : α) : Prop :=
  ∀ room, (encode a).depth ≤ room → decode room (encode a) = some a

/-- For decoders that enter a container. -/
theorem roundTrips_of_succ
    {decode : Decoder α} {encode : α → Value} {a : α} (hdepth : 0 < (encode a).depth)
    (h : ∀ room, (encode a).depth ≤ room + 1 → decode (room + 1) (encode a) = some a) :
    RoundTrips decode encode a := by
  intro room hroom
  cases room with
  | zero => omega
  | succ room => exact h room hroom

theorem roundTrips_list
    {item : Decoder α} {encode : α → Value} {as : List α}
    (h : ∀ a ∈ as, RoundTrips item encode a) :
    RoundTrips (Decode.list item) (fun as => .list (as.map encode)) as := by
  refine roundTrips_of_succ (by simp) fun room hroom => ?_
  rw [depth_list_le_iff] at hroom
  rw [Decode.list]
  induction as with
  | nil => rfl
  | cons a rest ih =>
      have hfirst : item room (encode a) = some a :=
        h a List.mem_cons_self room (hroom _ List.mem_cons_self)
      have hrest := ih (fun b hb => h b (List.mem_cons_of_mem _ hb))
        fun value hvalue => hroom value (List.mem_cons_of_mem _ hvalue)
      rw [List.map_cons, List.mapM_cons, hfirst, hrest]
      rfl

theorem lookup_named
    {options : List α} {name : α → String} (hnames : (options.map name).Nodup) {a : α}
    (ha : a ∈ options) : (options.map fun option => (name option, option)).lookup (name a) = some a := by
  induction options with
  | nil => cases ha
  | cons first rest ih =>
      rw [List.map_cons, List.nodup_cons] at hnames
      rcases List.mem_cons.mp ha with rfl | ha
      · simp
      · have hne : name a ≠ name first := fun heq =>
          hnames.1 (heq ▸ List.mem_map_of_mem ha)
        rw [List.map_cons, List.lookup_cons, beq_false_of_ne hne]
        exact ih hnames.2 ha

/-- A choice is written as its name. -/
theorem roundTrips_choice
    {rules : Rules} {options : List α} {name : α → String} (hnames : (options.map name).Nodup)
    {a : α} (ha : a ∈ options) :
    RoundTrips (Decode.choice rules (options.map fun option => (name option, option)))
      (fun option => .string (name option)) a := by
  intro room _
  rw [Decode.choice]
  exact lookup_named hnames ha

/-! ## Records -/

/-- The fields that a record may have, each in its place or left out. -/
inductive Slots : List (Option (String × Value)) → List String → Prop where
  | nil : Slots [] []
  | given {name : String} {value : Value} {slots : List (Option (String × Value))}
      {names : List String} (rest : Slots slots names) :
      Slots (some (name, value) :: slots) (name :: names)
  | optional {α : Type} {name : String} {encode : α → Value} {content : Option α}
      {slots : List (Option (String × Value))} {names : List String} (rest : Slots slots names) :
      Slots (Value.field? name encode content :: slots) (name :: names)

/-- A record of these fields with room for what is in it. -/
structure Reads (slots : List (Option (String × Value))) (names : List String) (room : Nat) :
    Prop where
  placed : Slots slots names
  distinct : names.Nodup
  fits : (Value.present slots).depth ≤ room + 1

variable {slots : List (Option (String × Value))} {names : List String} {name : String}

theorem Slots.sublist (h : Slots slots names) :
    ((slots.filterMap id).map Prod.fst).Sublist names := by
  induction h with
  | nil => exact .slnil
  | given _ ih => exact ih.cons_cons _
  | @optional _ _ _ content _ _ _ ih =>
      cases content with
      | none => exact ih.cons _
      | some a => exact ih.cons_cons _

theorem Slots.lookup_eq_none (h : Slots slots names) (hname : name ∉ names) :
    (slots.filterMap id).lookup name = none := by
  rw [List.lookup_eq_none_iff]
  intro field hfield
  have hmem : field.1 ∈ names := h.sublist.subset (List.mem_map_of_mem hfield)
  exact bne_iff_ne.mpr fun heq => hname (heq ▸ hmem)

theorem Slots.lookup
    (h : Slots slots names) (hnames : names.Nodup) {i : Nat} (hname : names[i]? = some name)
    {slot : Option (String × Value)} (hslot : slots[i]? = some slot) :
    (slots.filterMap id).lookup name = slot.map Prod.snd := by
  induction h generalizing i with
  | nil => simp at hname
  | @given first value _ others rest ih =>
      rw [List.nodup_cons] at hnames
      cases i with
      | zero =>
          cases hname
          cases hslot
          simp
      | succ i =>
          have hne : name ≠ first := fun heq =>
            hnames.1 (heq ▸ List.mem_of_getElem? (by simpa using hname))
          have hrest := ih hnames.2 hname hslot
          simpa [List.lookup_cons, beq_false_of_ne hne] using hrest
  | @optional _ first encode content _ others rest ih =>
      rw [List.nodup_cons] at hnames
      cases i with
      | zero =>
          cases hname
          cases hslot
          cases content with
          | none => exact rest.lookup_eq_none hnames.1
          | some a => simp [Value.field?]
      | succ i =>
          have hne : name ≠ first := fun heq =>
            hnames.1 (heq ▸ List.mem_of_getElem? (by simpa using hname))
          have hrest := ih hnames.2 hname hslot
          cases content with
          | none => exact hrest
          | some a => simpa [Value.field?, List.lookup_cons, beq_false_of_ne hne] using hrest

namespace Reads

variable {room : Nat}

theorem fields (h : Reads slots names room) (rules : Rules) :
    Decode.fields rules names (.present slots) = some (slots.filterMap id) := by
  have hknown : (slots.filterMap id).filter (fun field => names.contains field.1) =
      slots.filterMap id := by
    rw [List.filter_eq_self]
    intro field hfield
    simpa using h.placed.sublist.subset (List.mem_map_of_mem hfield)
  have hdistinct : ((slots.filterMap id).map Prod.fst).Nodup :=
    h.distinct.sublist h.placed.sublist
  simp only [Decode.fields, Value.present, hknown, if_pos hdistinct]

theorem depth_le
    (h : Reads slots names room) {i : Nat} {field : String} {value : Value}
    (hslot : slots[i]? = some (some (field, value))) : value.depth ≤ room := by
  have hmem : (field, value) ∈ slots.filterMap id :=
    List.mem_filterMap.mpr ⟨_, List.mem_of_getElem? hslot, rfl⟩
  exact depth_present_le_iff.mp h.fits _ hmem

/-- The field in the `i`-th place, which is there. -/
theorem required
    (h : Reads slots names room) (i : Nat) (hname : names[i]? = some name) {field : String}
    {value : Value} (hslot : slots[i]? = some (some (field, value)))
    {decode : Value → Option α} {a : α} (hdecode : value.depth ≤ room → decode value = some a) :
    Decode.required (slots.filterMap id) name decode = some a := by
  rw [Decode.required, h.placed.lookup h.distinct hname hslot]
  exact hdecode (h.depth_le hslot)

theorem withDefault
    (h : Reads slots names room) (i : Nat) (hname : names[i]? = some name) {field : String}
    {value : Value} (hslot : slots[i]? = some (some (field, value)))
    {decode : Value → Option α} {a default : α}
    (hdecode : value.depth ≤ room → decode value = some a) :
    Decode.withDefault (slots.filterMap id) name default decode = some a := by
  rw [Decode.withDefault, h.placed.lookup h.distinct hname hslot]
  exact hdecode (h.depth_le hslot)

/-- The field in the `i`-th place, left out when there is nothing to say. -/
theorem optional
    (h : Reads slots names room) (i : Nat) (hname : names[i]? = some name) {field : String}
    {encode : α → Value} {content : Option α}
    (hslot : slots[i]? = some (Value.field? field encode content))
    {decode : Value → Option α} (hnull : ∀ a, encode a ≠ .null)
    (hdecode : ∀ a, (encode a).depth ≤ room → decode (encode a) = some a) :
    Decode.optional (slots.filterMap id) name decode = some content := by
  rw [Decode.optional, h.placed.lookup h.distinct hname hslot]
  cases content with
  | none => rfl
  | some a =>
      have ha : decode (encode a) = some a := hdecode a (h.depth_le hslot)
      simp only [Value.field?, Option.map_some]
      split
      next hlookup => cases hlookup
      next hlookup => exact absurd (Option.some.inj hlookup) (hnull a)
      next hlookup =>
        cases hlookup
        rw [ha, Option.map_some]

end Reads

end Document

open Document

/-! ## Models -/

theorem DataType.roundTrips (dataType : DataType) : RoundTrips decode encode dataType :=
  roundTrips_choice (by decide) (by cases dataType <;> decide)

theorem Grain.roundTrips (grain : Grain) : RoundTrips decode encode grain :=
  roundTrips_choice (by decide) (by cases grain <;> decide)

theorem EntityKind.roundTrips (kind : EntityKind) : RoundTrips decode encode kind :=
  roundTrips_choice (by decide) (by cases kind <;> decide)

theorem DimensionKind.roundTrips (kind : DimensionKind) : RoundTrips decode encode kind :=
  roundTrips_choice (by decide) (by cases kind <;> decide)

theorem Table.roundTrips (table : Table) : RoundTrips decode encode table := by
  refine roundTrips_of_succ (Nat.succ_pos _) fun room hroom => ?_
  have h : Reads _ _ room := ⟨.optional (.given .nil), by decide, hroom⟩
  have hschema : Decode.optional _ "schema" Decode.string = some table.schema :=
    h.optional 0 rfl rfl nofun fun _ _ => rfl
  have hname : Decode.required _ "name" Decode.string = some table.name :=
    h.required 1 rfl rfl fun _ => rfl
  simp only [encode, decode, h.fields, hschema, hname, Option.bind_eq_bind, Option.bind_some]
  rfl

theorem Entity.roundTrips (entity : Entity) : RoundTrips decode encode entity := by
  refine roundTrips_of_succ (Nat.succ_pos _) fun room hroom => ?_
  have h : Reads _ _ room := ⟨.given (.optional (.given (.given .nil))), by decide, hroom⟩
  have hname : Decode.required _ "name" Decode.string = some entity.name :=
    h.required 0 rfl rfl fun _ => rfl
  have hexpression : Decode.optional _ "expr" Decode.string = some entity.expression :=
    h.optional 1 rfl rfl nofun fun _ _ => rfl
  have hkind : Decode.required _ "kind" (EntityKind.decode room) = some entity.kind :=
    h.required 2 rfl rfl (entity.kind.roundTrips room)
  have hdataType : Decode.required _ "data_type" (DataType.decode room) = some entity.dataType :=
    h.required 3 rfl rfl (entity.dataType.roundTrips room)
  simp only [encode, decode, h.fields, hname, hexpression, hkind, hdataType,
    Option.bind_eq_bind, Option.bind_some]
  rfl

theorem Dimension.roundTrips (dimension : Dimension) : RoundTrips decode encode dimension := by
  refine roundTrips_of_succ (Nat.succ_pos _) fun room hroom => ?_
  have h : Reads _ _ room :=
    ⟨.given (.optional (.given (.given (.optional .nil)))), by decide, hroom⟩
  have hname : Decode.required _ "name" Decode.string = some dimension.name :=
    h.required 0 rfl rfl fun _ => rfl
  have hexpression : Decode.optional _ "expr" Decode.string = some dimension.expression :=
    h.optional 1 rfl rfl nofun fun _ _ => rfl
  have hkind : Decode.required _ "kind" (DimensionKind.decode room) = some dimension.kind :=
    h.required 2 rfl rfl (dimension.kind.roundTrips room)
  have hdataType :
      Decode.required _ "data_type" (DataType.decode room) = some dimension.dataType :=
    h.required 3 rfl rfl (dimension.dataType.roundTrips room)
  have hgrain : Decode.optional _ "granularity" (Grain.decode room) = some dimension.grain :=
    h.optional 4 rfl rfl nofun fun grain => grain.roundTrips room
  simp only [encode, decode, h.fields, hname, hexpression, hkind, hdataType, hgrain,
    Option.bind_eq_bind, Option.bind_some]
  rfl

theorem decode_encodeFloat {x : Float} (h : Decimal.isFinite x = true) :
    Decode.float (Json.encodeFloat x) = some x := by
  rw [Json.encodeFloat, if_pos h]
  rfl

/-- Whether the number of a percentile is finite. -/
def Aggregation.isFinite : Aggregation → Bool
  | percentile fraction _ _ => Decimal.isFinite fraction
  | _ => true

theorem Aggregation.decode_name
    {aggregation : Aggregation} (h : aggregation ∈ plain) (room : Nat) :
    decode room (.string aggregation.name) = some aggregation := by
  have hnames : (plain.map name).Nodup := by decide
  simp only [decode, Decode.choice]
  exact lookup_named hnames h

theorem Aggregation.roundTrips
    {aggregation : Aggregation} (hfinite : aggregation.isFinite = true) :
    RoundTrips decode encode aggregation := by
  cases aggregation with
  | percentile fraction discrete approximate =>
      refine roundTrips_of_succ (Nat.succ_pos _) fun room hroom => ?_
      rw [encode, depth_tagged, Nat.add_le_add_iff_right] at hroom
      obtain ⟨room, rfl⟩ := exists_succ_of_depth hroom
      have h : Reads [some _, some _, some _] _ room :=
        ⟨.given (.given (.given .nil)), by decide, hroom⟩
      have hfraction : Decode.required _ "percentile" Decode.float = some fraction :=
        h.required 0 rfl rfl fun _ => decode_encodeFloat hfinite
      have hdiscrete : Decode.withDefault _ "discrete" false Decode.bool = some discrete :=
        h.withDefault 1 rfl rfl fun _ => rfl
      have happroximate :
          Decode.withDefault _ "approximate" false Decode.bool = some approximate :=
        h.withDefault 2 rfl rfl fun _ => rfl
      change decodePercentile (room + 1) (.present [some _, some _, some _]) = _
      simp only [decodePercentile, h.fields, hfraction, hdiscrete, happroximate,
        Option.bind_eq_bind, Option.bind_some]
      rfl
  | _ => exact fun room _ => decode_name (by simp [plain]) room

theorem MeasureSource.roundTrips (source : MeasureSource) : RoundTrips decode encode source := by
  refine roundTrips_of_succ (by cases source <;> exact Nat.succ_pos _) fun room _ => ?_
  cases source with
  | column expression => rfl
  | constant value =>
      have hrange : Int64.minValue.toInt ≤ value.toInt ∧ value.toInt ≤ Int64.maxValue.toInt :=
        ⟨value.minValue_le_toInt, value.toInt_le⟩
      have hvalue : Decode.int64 (.integer value.toInt) = some value := by
        rw [Decode.int64, if_pos hrange, Int64.ofInt_toInt]
      simp [encode, decode, Value.tagged, hvalue]

theorem Measure.roundTrips
    {measure : Measure} (hfinite : measure.aggregation.isFinite = true) :
    RoundTrips decode encode measure := by
  refine roundTrips_of_succ (Nat.succ_pos _) fun room hroom => ?_
  have h : Reads _ _ room := ⟨.given (.given (.given (.optional .nil))), by decide, hroom⟩
  have hname : Decode.required _ "name" Decode.string = some measure.name :=
    h.required 0 rfl rfl fun _ => rfl
  have haggregation :
      Decode.required _ "agg" (Aggregation.decode room) = some measure.aggregation :=
    h.required 1 rfl rfl (Aggregation.roundTrips hfinite room)
  have hsource : Decode.required _ "expr" (MeasureSource.decode room) = some measure.source :=
    h.required 2 rfl rfl (measure.source.roundTrips room)
  have hdataType : Decode.optional _ "data_type" (DataType.decode room) = some measure.dataType :=
    h.optional 3 rfl rfl nofun fun dataType => dataType.roundTrips room
  simp only [encode, decode, h.fields, hname, haggregation, hsource, hdataType,
    Option.bind_eq_bind, Option.bind_some]
  rfl

theorem ValidityWindow.roundTrips (window : ValidityWindow) : RoundTrips decode encode window := by
  refine roundTrips_of_succ (Nat.succ_pos _) fun room hroom => ?_
  have h : Reads [some _, some _] _ room := ⟨.given (.given .nil), by decide, hroom⟩
  have hstart : Decode.required _ "start" Decode.string = some window.start :=
    h.required 0 rfl rfl fun _ => rfl
  have hstop : Decode.required _ "end" Decode.string = some window.stop :=
    h.required 1 rfl rfl fun _ => rfl
  change decode (room + 1) (.present [some _, some _]) = _
  simp only [decode, h.fields, hstart, hstop, Option.bind_eq_bind, Option.bind_some]
  rfl

theorem Model.roundTrips
    {model : Model} (hfinite : ∀ measure ∈ model.measures, measure.aggregation.isFinite = true) :
    RoundTrips decode encode model := by
  refine roundTrips_of_succ (Nat.succ_pos _) fun room hroom => ?_
  have h : Reads _ _ room :=
    ⟨.given (.given (.given (.given (.given (.optional .nil))))), by decide, hroom⟩
  have hname : Decode.required _ "name" Decode.string = some model.name :=
    h.required 0 rfl rfl fun _ => rfl
  have htable : Decode.required _ "table" (Table.decode room) = some model.table :=
    h.required 1 rfl rfl (model.table.roundTrips room)
  have hentities : Decode.withDefault _ "entities" [] (Decode.list Entity.decode room) =
      some model.entities :=
    h.withDefault 2 rfl rfl (roundTrips_list (fun entity _ => entity.roundTrips) room)
  have hdimensions : Decode.withDefault _ "dimensions" [] (Decode.list Dimension.decode room) =
      some model.dimensions :=
    h.withDefault 3 rfl rfl (roundTrips_list (fun dimension _ => dimension.roundTrips) room)
  have hmeasures : Decode.withDefault _ "measures" [] (Decode.list Measure.decode room) =
      some model.measures :=
    h.withDefault 4 rfl rfl
      (roundTrips_list (fun measure hmeasure => Measure.roundTrips (hfinite measure hmeasure)) room)
  have hwindow : Decode.optional _ "validity_window" (ValidityWindow.decode room) =
      some model.window :=
    h.optional 5 rfl rfl nofun fun window => window.roundTrips room
  simp only [encode, decode, h.fields, hname, htable, hentities, hdimensions, hmeasures, hwindow,
    Option.bind_eq_bind, Option.bind_some]
  rfl

/-! ## Metrics -/

theorem Operator.roundTrips (operator : Operator) : RoundTrips decode encode operator :=
  roundTrips_choice (by decide) (by cases operator <;> decide)

namespace Formula

/-- Whether all literals are finite. -/
def isFinite : Formula → Bool
  | input _ => true
  | literal value => Decimal.isFinite value
  | neg operand => operand.isFinite
  | binary _ left right => left.isFinite && right.isFinite
  | ratio numerator denominator => numerator.isFinite && denominator.isFinite

theorem roundTrips {formula : Formula} (hfinite : formula.isFinite = true) :
    RoundTrips decode encode formula := by
  induction formula with
  | input name =>
      refine roundTrips_of_succ (Nat.succ_pos _) fun room _ => ?_
      simp [encode, decode, Value.tagged, Decode.string]
  | literal value =>
      refine roundTrips_of_succ (Nat.succ_pos _) fun room _ => ?_
      simp [encode, decode, Value.tagged, decode_encodeFloat hfinite]
  | neg operand ih =>
      refine roundTrips_of_succ (Nat.succ_pos _) fun room hroom => ?_
      rw [encode, depth_tagged, Nat.add_le_add_iff_right] at hroom
      simp [encode, decode, Value.tagged, ih hfinite room hroom]
  | binary operator left right ihleft ihright =>
      rw [isFinite, Bool.and_eq_true] at hfinite
      refine roundTrips_of_succ (Nat.succ_pos _) fun room hroom => ?_
      rw [encode, depth_tagged, Nat.add_le_add_iff_right] at hroom
      obtain ⟨room, rfl⟩ := exists_succ_of_depth hroom
      have h : Reads [some _, some _, some _] _ room :=
        ⟨.given (.given (.given .nil)), by decide, hroom⟩
      have hoperator : Decode.required _ "op" (Operator.decode room) = some operator :=
        h.required 0 rfl rfl (operator.roundTrips room)
      have hleft : Decode.required _ "left" (decode room) = some left :=
        h.required 1 rfl rfl (ihleft hfinite.1 room)
      have hright : Decode.required _ "right" (decode room) = some right :=
        h.required 2 rfl rfl (ihright hfinite.2 room)
      change decode (room + 2) (.record [("binary", .present [some _, some _, some _])]) = _
      simp only [decode, h.fields, hoperator, hleft, hright, Option.bind_eq_bind,
        Option.bind_some]
      rfl
  | ratio numerator denominator ihnumerator ihdenominator =>
      rw [isFinite, Bool.and_eq_true] at hfinite
      refine roundTrips_of_succ (Nat.succ_pos _) fun room hroom => ?_
      rw [encode, depth_tagged, Nat.add_le_add_iff_right] at hroom
      obtain ⟨room, rfl⟩ := exists_succ_of_depth hroom
      have h : Reads [some _, some _] _ room := ⟨.given (.given .nil), by decide, hroom⟩
      have hnumerator : Decode.required _ "numerator" (decode room) = some numerator :=
        h.required 0 rfl rfl (ihnumerator hfinite.1 room)
      have hdenominator : Decode.required _ "denominator" (decode room) = some denominator :=
        h.required 1 rfl rfl (ihdenominator hfinite.2 room)
      change decode (room + 2) (.record [("ratio", .present [some _, some _])]) = _
      simp only [decode, h.fields, hnumerator, hdenominator, Option.bind_eq_bind,
        Option.bind_some]
      rfl

end Formula

theorem Metric.roundTrips {metric : Metric} (hfinite : metric.formula.isFinite = true) :
    RoundTrips decode encode metric := by
  refine roundTrips_of_succ (Nat.succ_pos _) fun room hroom => ?_
  have h : Reads _ _ room := ⟨.given (.given (.optional .nil)), by decide, hroom⟩
  have hname : Decode.required _ "name" Decode.string = some metric.name :=
    h.required 0 rfl rfl fun _ => rfl
  have hformula : Decode.required _ "expr" (Formula.decode room) = some metric.formula :=
    h.required 1 rfl rfl (Formula.roundTrips hfinite room)
  have hdescription : Decode.optional _ "description" Decode.string = some metric.description :=
    h.optional 2 rfl rfl nofun fun _ _ => rfl
  simp only [encode, decode, h.fields, hname, hformula, hdescription, Option.bind_eq_bind,
    Option.bind_some]
  rfl

/-! ## Documents -/

namespace Manifest

/-- All numbers in measures and formulas are finite. -/
structure IsFinite (manifest : Manifest) : Prop where
  measures : ∀ model ∈ manifest.models, ∀ measure ∈ model.measures,
    measure.aggregation.isFinite = true
  formulas : ∀ metric ∈ manifest.metrics, metric.formula.isFinite = true

theorem roundTrips {manifest : Manifest} (hfinite : manifest.IsFinite) :
    RoundTrips decode encode manifest := by
  refine roundTrips_of_succ (Nat.succ_pos _) fun room hroom => ?_
  have h : Reads [some _, some _] _ room := ⟨.given (.given .nil), by decide, hroom⟩
  have hmodels : Decode.withDefault _ "semantic_models" [] (Decode.list Model.decode room) =
      some manifest.models :=
    h.withDefault 0 rfl rfl
      (roundTrips_list (fun model hmodel => Model.roundTrips (hfinite.measures model hmodel)) room)
  have hmetrics : Decode.withDefault _ "metrics" [] (Decode.list Metric.decode room) =
      some manifest.metrics :=
    h.withDefault 1 rfl rfl
      (roundTrips_list (fun metric hmetric => Metric.roundTrips (hfinite.formulas metric hmetric))
        room)
  change decode (room + 1) (.present [some _, some _]) = _
  simp only [decode, h.fields, hmodels, hmetrics, Option.bind_eq_bind, Option.bind_some]
  rfl

end Manifest

theorem GroupItem.roundTrips (item : GroupItem) : RoundTrips decode encode item := by
  refine roundTrips_of_succ (Nat.succ_pos _) fun room hroom => ?_
  have h : Reads _ _ room := ⟨.given (.optional (.optional .nil)), by decide, hroom⟩
  have hname : Decode.required _ "name" Decode.string = some item.name :=
    h.required 0 rfl rfl fun _ => rfl
  have hvia : Decode.optional _ "via" Decode.string = some item.via :=
    h.optional 1 rfl rfl nofun fun _ _ => rfl
  have hgrain : Decode.optional _ "grain" (Grain.decode room) = some item.grain :=
    h.optional 2 rfl rfl nofun fun grain => grain.roundTrips room
  simp only [encode, decode, h.fields, hname, hvia, hgrain, Option.bind_eq_bind, Option.bind_some]
  rfl

namespace Request

theorem roundTrips (request : Request) : RoundTrips decode encode request := by
  refine roundTrips_of_succ (Nat.succ_pos _) fun room hroom => ?_
  have h : Reads [some _, some _] _ room := ⟨.given (.given .nil), by decide, hroom⟩
  have hstring : ∀ name : String, RoundTrips (fun _ => Decode.string) Value.string name :=
    fun _ _ _ => rfl
  have hmetrics : Decode.required _ "metrics" (Decode.list (fun _ => Decode.string) room) =
      some request.metrics :=
    h.required 0 rfl rfl (roundTrips_list (fun name _ => hstring name) room)
  have hgroupBy : Decode.withDefault _ "group_by" [] (Decode.list GroupItem.decode room) =
      some request.groupBy :=
    h.withDefault 1 rfl rfl (roundTrips_list (fun item _ => item.roundTrips) room)
  change decode (room + 1) (.present [some _, some _]) = _
  simp only [decode, h.fields, hmetrics, hgroupBy, Option.bind_eq_bind, Option.bind_some]
  rfl

theorem depth_encode_le (request : Request) : request.encode.depth ≤ 3 := by
  have hitem : ∀ item : GroupItem, item.encode.depth ≤ 1 := by
    rintro ⟨name, via, grain⟩
    rw [GroupItem.encode, depth_present_le_iff]
    cases via <;> cases grain <;> simp [Value.field?, Value.depth, Grain.encode]
  have hmetrics : (Value.list (request.metrics.map .string)).depth ≤ 2 := by
    rw [depth_list_le_iff]
    simp [Value.depth]
  have hgroupBy : (Value.list (request.groupBy.map GroupItem.encode)).depth ≤ 2 := by
    rw [depth_list_le_iff]
    simpa using fun item _ => hitem item
  change (Value.present [some _, some _]).depth ≤ 2 + 1
  rw [depth_present_le_iff]
  simp [hmetrics, hgroupBy]

end Request

theorem Dialect.roundTrips (rules : Rules) (dialect : Dialect) :
    RoundTrips (decode rules) encode dialect :=
  roundTrips_choice (by decide) (by cases dialect <;> decide)

theorem QuotePolicy.roundTrips (rules : Rules) (policy : QuotePolicy) :
    RoundTrips (decode rules) encode policy :=
  roundTrips_choice (by decide) (by cases policy <;> decide)

theorem DivisionStyle.roundTrips (rules : Rules) (style : DivisionStyle) :
    RoundTrips (decode rules) encode style :=
  roundTrips_choice (by decide) (by cases style <;> decide)

namespace Profile

theorem roundTrips (rules : Rules) (profile : Profile) :
    RoundTrips (decode rules) encode profile := by
  refine roundTrips_of_succ (Nat.succ_pos _) fun room hroom => ?_
  have h : Reads _ _ room := ⟨.given (.given (.optional (.given .nil))), by decide, hroom⟩
  have hdialect : Decode.withDefault _ "dialect" ({} : Profile).dialect (Dialect.decode rules room) =
      some profile.dialect :=
    h.withDefault 0 rfl rfl (profile.dialect.roundTrips rules room)
  have hquoting :
      Decode.withDefault _ "quoting" ({} : Profile).quoting (QuotePolicy.decode rules room) =
        some profile.quoting :=
    h.withDefault 1 rfl rfl (profile.quoting.roundTrips rules room)
  have hdivision : Decode.optional _ "division" (DivisionStyle.decode rules room) =
      some profile.division :=
    h.optional 2 rfl rfl nofun fun style => style.roundTrips rules room
  have hcomments :
      Decode.withDefault _ "stage_comments" ({} : Profile).stageComments Decode.bool =
        some profile.stageComments :=
    h.withDefault 3 rfl rfl fun _ => rfl
  simp only [encode, decode, h.fields, hdialect, hquoting, hdivision, hcomments,
    Option.bind_eq_bind, Option.bind_some]
  rfl

theorem depth_encode_le (profile : Profile) : profile.encode.depth ≤ 1 := by
  rw [encode, depth_present_le_iff]
  cases profile.division <;>
    simp [Value.field?, Value.depth, Dialect.encode, QuotePolicy.encode, DivisionStyle.encode]

end Profile

/-- A manifest of finite numbers is read back from the JSON value that is written for it, if the reader can enter all
of its containers.  So are all requests and all profiles, which hold no such numbers and are never deep. -/
theorem Document.Json.decode_encode :
    (∀ manifest : Manifest, manifest.IsFinite → manifest.encode.depth ≤ deepest →
      Manifest.decode deepest manifest.encode = some manifest) ∧
    (∀ request : Request, Request.decode deepest request.encode = some request) ∧
    ∀ profile : Profile, Profile.decode rules deepest profile.encode = some profile := by
  refine ⟨fun manifest hfinite hdepth => Manifest.roundTrips hfinite deepest hdepth, ?_, ?_⟩
  · intro request
    have hdepth : request.encode.depth ≤ deepest :=
      request.depth_encode_le.trans (by decide)
    exact request.roundTrips deepest hdepth
  · intro profile
    have hdepth : profile.encode.depth ≤ deepest :=
      profile.depth_encode_le.trans (by decide)
    exact profile.roundTrips rules deepest hdepth

namespace Sample

/-- Percentiles and nested formulas. -/
def medianManifest : Manifest where
  models := [{ bookings with
    measures := [
      { name := "typical", aggregation := .percentile 0.5 true false, source := .column "Amount" },
      { name := "rows", aggregation := .count, source := .constant (-1), dataType := some .int }] },
    listings]
  metrics := [
    { name := "spread", description := some "",
      formula := .neg (.binary .sub (.ratio (.input "typical") (.literal 2.5)) (.input "rows")) }]

theorem medianManifest_round_trips :
    medianManifest.IsFinite ∧ medianManifest.encode.depth = 9 ∧
      Manifest.decode Document.Json.deepest medianManifest.encode = some medianManifest := by
  have hfinite : medianManifest.IsFinite := ⟨by decide +kernel, by decide +kernel⟩
  have hdepth : medianManifest.encode.depth = 9 := by decide +kernel
  exact ⟨hfinite, hdepth, Document.Json.decode_encode.1 medianManifest hfinite
    (by rw [hdepth]; decide)⟩

end Sample

end MetricSql
