import MetricSql.Proofs.Plan.Joinable

/-!
# Group keys that are missing

A key that the input does not have may still be a name linked through an entity
that it has: then a join is missing.  The entity is looked for in front of the
first two underscores of the key only.  That is enough as long as no entity of the
input has two underscores in its name or one at its end; of the others, such as
those that a join has prefixed, the key may be longer than that.
-/

namespace MetricSql

/-! ## Linked names -/

/-- The name is that of an element reached through the entity. -/
def LinksThrough (entity name : String) : Prop := ∃ rest, name = qualified entity rest

/-- No shorter name in the place of the entity links the name as well. -/
def LinksFirst (entity name : String) : Prop :=
  LinksThrough entity name ∧ ∀ other, LinksThrough other name → entity.length ≤ other.length

theorem toList_qualified (a b : String) :
    (qualified a b).toList = a.toList ++ '_' :: '_' :: b.toList := by
  simp [qualified, String.toList_append]

theorem linksThrough_iff {entity name : String} :
    LinksThrough entity name ↔ ∃ rest, name.toList = entity.toList ++ '_' :: '_' :: rest := by
  constructor
  · rintro ⟨rest, rfl⟩
    exact ⟨rest.toList, toList_qualified entity rest⟩
  · rintro ⟨rest, hname⟩
    refine ⟨String.ofList rest, String.toList_injective ?_⟩
    rw [toList_qualified, String.toList_ofList, hname]

theorem splitQualified?_eq_none {name : List Char} (h : splitQualified? name = none)
    (before after : List Char) : name ≠ before ++ '_' :: '_' :: after := by
  fun_induction splitQualified? name generalizing before with
  | case1 => simp
  | case2 rest => cases h
  | case3 c rest hnot ih =>
      rw [Option.map_eq_none_iff] at h
      cases before with
      | nil =>
          rintro ⟨rfl, rfl⟩
          exact hnot after rfl rfl
      | cons first before =>
          rintro ⟨rfl, rfl⟩
          exact ih h before rfl

/-- The split is at the first two underscores. -/
theorem splitQualified?_eq_some {name before after : List Char}
    (h : splitQualified? name = some (before, after)) :
    name = before ++ '_' :: '_' :: after ∧
      ∀ front back, name = front ++ '_' :: '_' :: back → before.length ≤ front.length := by
  fun_induction splitQualified? name generalizing before with
  | case1 => cases h
  | case2 rest =>
      cases h
      simp
  | case3 c rest hnot ih =>
      simp only [Option.map_eq_some_iff, Prod.exists, Prod.mk.injEq] at h
      rcases h with ⟨start, stop, hsplit, rfl, rfl⟩
      rcases ih hsplit with ⟨rfl, hleast⟩
      refine ⟨rfl, ?_⟩
      intro front back hname
      cases front with
      | nil =>
          simp only [List.nil_append, List.cons.injEq] at hname
          exact absurd hname.2 (hnot back hname.1)
      | cons first front =>
          simp only [List.cons_append, List.cons.injEq] at hname
          simpa using hleast front back hname.2

theorem linksFirst_of_split {name : String} {before after : List Char}
    (h : splitQualified? name.toList = some (before, after)) :
    LinksFirst (String.ofList before) name := by
  rcases splitQualified?_eq_some h with ⟨hname, hleast⟩
  constructor
  · rw [linksThrough_iff, String.toList_ofList]
    exact ⟨after, hname⟩
  · intro other hother
    rcases linksThrough_iff.mp hother with ⟨rest, hrest⟩
    simpa [← String.length_toList] using hleast other.toList rest hrest

theorem LinksFirst.unique {entity other name : String} (h : LinksFirst entity name)
    (hother : LinksFirst other name) : entity = other := by
  rcases linksThrough_iff.mp h.1 with ⟨rest, hname⟩
  rcases linksThrough_iff.mp hother.1 with ⟨rest', hname'⟩
  have hlength : entity.toList.length = other.toList.length := by
    rw [String.length_toList, String.length_toList]
    exact le_antisymm (h.2 other hother.1) (hother.2 entity h.1)
  rw [hname'] at hname
  exact String.toList_injective (List.append_inj_left hname hlength.symm).symm

theorem not_linksThrough_of_split {name : String} (h : splitQualified? name.toList = none)
    (entity : String) : ¬ LinksThrough entity name := by
  intro hlinks
  rcases linksThrough_iff.mp hlinks with ⟨rest, hname⟩
  exact splitQualified?_eq_none h entity.toList rest hname

/-- The first underscores of the name are those after the entity. -/
theorem LinksThrough.first {entity name : String} (h : LinksThrough entity name)
    (hentity : Unqualified (entity ++ "_")) : LinksFirst entity name := by
  refine ⟨h, ?_⟩
  intro other hother
  by_contra hshorter
  rcases linksThrough_iff.mp h with ⟨rest, hname⟩
  rcases linksThrough_iff.mp hother with ⟨rest', hname'⟩
  have hlong : (entity ++ "_").toList <+: name.toList := by
    refine ⟨'_' :: rest, ?_⟩
    simp [hname, String.toList_append]
  have hshort : other.toList ++ ['_', '_'] <+: name.toList := by
    refine ⟨rest', ?_⟩
    simp [hname']
  have hle : (other.toList ++ ['_', '_']).length ≤ (entity ++ "_").toList.length := by
    simp only [List.length_append, String.toList_append, String.length_toList,
      List.length_cons, List.length_nil]
    have hone : "_".length = 1 := rfl
    omega
  have hprefix := List.prefix_of_prefix_length_le hshort hlong hle
  exact hentity ((List.infix_append' other.toList ['_', '_'] []).trans (by simpa using hprefix.isInfix))

/-! ## The diagnosis -/

namespace Plan

/-- The input has an entity of the name. -/
def HasEntity (input : Plan) (name : String) : Prop :=
  ∃ column ∈ input.columns, column.name = name ∧ column.role = .entity

/-- Rows of the input can be grouped by the name. -/
def Groups (input : Plan) (name : String) : Prop :=
  ∃ column ∈ input.columns, column.name = name ∧ column.role.isGroupable = true

instance (input : Plan) (name : String) : Decidable (input.HasEntity name) :=
  inferInstanceAs (Decidable (∃ column ∈ input.columns, _))

instance (input : Plan) (name : String) : Decidable (input.Groups name) :=
  inferInstanceAs (Decidable (∃ column ∈ input.columns, _))

/-- What should be said of a missing key: that a join is missing if the key is linked through an
entity of the input, and else that it is not there. -/
def Diagnoses (input : Plan) (key : String) (failure : Failure) : Prop :=
  (∃ entity, input.HasEntity entity ∧ LinksThrough entity key ∧
      failure = .aggregationBeforeJoin key entity) ∨
    (∀ entity, input.HasEntity entity → ¬ LinksThrough entity key) ∧
      failure = .missingDimension .aggregate key

variable {input : Plan} {key name : String}

theorem hasEntity_iff (hnodup : input.columnNames.Nodup) :
    input.HasEntity name ↔ (input.column? name).any (·.role = .entity) = true := by
  simp only [Option.any_eq_true, decide_eq_true_eq]
  constructor
  · rintro ⟨column, hcolumn, rfl, hrole⟩
    exact ⟨column, column?_of_mem hnodup hcolumn, hrole⟩
  · rintro ⟨column, hcolumn, hrole⟩
    rcases column?_mem hcolumn with ⟨hmem, hname⟩
    exact ⟨column, hmem, hname, hrole⟩

theorem missingKey_cases (hnodup : input.columnNames.Nodup) (key : String) :
    (∃ entity, input.HasEntity entity ∧ LinksFirst entity key ∧
        input.missingKey key = .aggregationBeforeJoin key entity) ∨
      (∀ entity, input.HasEntity entity → ¬ LinksFirst entity key) ∧
        input.missingKey key = .missingDimension .aggregate key := by
  unfold missingKey
  cases hsplit : splitQualified? key.toList with
  | none =>
      right
      exact ⟨fun entity _ hlinks => not_linksThrough_of_split hsplit entity hlinks.1, rfl⟩
  | some parts =>
      have hfirst : LinksFirst (String.ofList parts.1) key := linksFirst_of_split hsplit
      by_cases hentity : input.HasEntity (String.ofList parts.1)
      · left
        refine ⟨String.ofList parts.1, hentity, hfirst, ?_⟩
        exact if_pos ((hasEntity_iff hnodup).mp hentity)
      · right
        constructor
        · intro entity hother hlinks
          rw [hlinks.unique hfirst] at hother
          exact hentity hother
        · exact if_neg (fun h => hentity ((hasEntity_iff hnodup).mpr h))

theorem keyColumn_of_groups (hnodup : input.columnNames.Nodup) (h : input.Groups key) :
    ∃ column, input.keyColumn key = .ok column := by
  rcases h with ⟨column, hcolumn, rfl, hrole⟩
  refine ⟨column.through input.aliasName, ?_⟩
  rw [keyColumn, column?_of_mem hnodup hcolumn]
  exact if_pos hrole

theorem keyColumn_of_not_groups (h : ¬ input.Groups key) :
    input.keyColumn key = .error (input.missingKey key) := by
  unfold keyColumn
  cases hcolumn : input.column? key with
  | none => rfl
  | some column =>
      rcases column?_mem hcolumn with ⟨hmem, hname⟩
      exact if_neg fun hrole => h ⟨column, hmem, hname, hrole⟩

/-- The keys are looked up in order, and before the measures. -/
theorem aggregateBy_of_missing (hnodup : input.columnNames.Nodup) {keys : GroupKeys}
    {before after : List String} (hkeys : keys.names = before ++ key :: after)
    (hbefore : ∀ earlier ∈ before, input.Groups earlier) (hkey : ¬ input.Groups key)
    (measures : List MeasureTerm) (supply : AliasSupply) :
    input.aggregateBy keys measures supply = (.error (input.missingKey key), supply) := by
  have hfirst : keys.names.mapM input.keyColumn = .error (input.missingKey key) := by
    rw [hkeys]
    clear hkeys
    induction before with
    | nil => rw [List.nil_append, List.mapM_cons, keyColumn_of_not_groups hkey]; rfl
    | cons earlier before ih =>
        rcases keyColumn_of_groups hnodup (hbefore earlier List.mem_cons_self) with ⟨column, hcolumn⟩
        have hrest := ih fun other hother => hbefore other (List.mem_cons_of_mem _ hother)
        rw [List.cons_append, List.mapM_cons, hcolumn, hrest]
        rfl
  have hcolumns : input.aggregateColumns keys measures = .error (input.missingKey key) := by
    unfold aggregateColumns
    rw [hfirst]
    simp [hkeys]
    rfl
  rw [aggregateBy, hcolumns]

/-- The first key that the input cannot be grouped by is reported.  A join is said to be missing
exactly if the text before the first two underscores of the key is an entity of the input.  So the
diagnosis is right unless the only entities that link the key have names in which the first two
underscores come earlier. -/
theorem aggregateBy_missing_key (hbuilt : input.Built) {keys : GroupKeys}
    {before after : List String} (hkeys : keys.names = before ++ key :: after)
    (hbefore : ∀ earlier ∈ before, input.Groups earlier) (hkey : ¬ input.Groups key)
    (measures : List MeasureTerm) (supply : AliasSupply) :
    ∃ failure, input.aggregateBy keys measures supply = (.error failure, supply) ∧
      ((∃ entity, input.HasEntity entity ∧ LinksFirst entity key ∧
          failure = .aggregationBeforeJoin key entity) ∨
        (∀ entity, input.HasEntity entity → ¬ LinksFirst entity key) ∧
          failure = .missingDimension .aggregate key) ∧
      (input.Diagnoses key failure ↔
        ∀ entity, input.HasEntity entity → LinksThrough entity key →
          ∃ first, input.HasEntity first ∧ LinksFirst first key) ∧
      ((∀ entity, input.HasEntity entity → Unqualified (entity ++ "_")) →
        input.Diagnoses key failure) := by
  have hfails := aggregateBy_of_missing hbuilt.nodup hkeys hbefore hkey measures supply
  have hcases := missingKey_cases hbuilt.nodup key
  have hright : input.Diagnoses key (input.missingKey key) ↔
      ∀ entity, input.HasEntity entity → LinksThrough entity key →
        ∃ first, input.HasEntity first ∧ LinksFirst first key := by
    rcases hcases with ⟨first, hfirst, hlinks, hfailure⟩ | ⟨hnone, hfailure⟩
    · constructor
      · intro _ _ _ _
        exact ⟨first, hfirst, hlinks⟩
      · intro _
        exact .inl ⟨first, hfirst, hlinks.1, hfailure⟩
    · rw [hfailure]
      constructor
      · rintro (⟨entity, -, -, hother⟩ | ⟨hunlinked, -⟩) entity hentity hlinks
        · cases hother
        · exact absurd hlinks (hunlinked entity hentity)
      · intro hlinked
        refine .inr ⟨?_, rfl⟩
        intro entity hentity hlinks
        rcases hlinked entity hentity hlinks with ⟨first, hfirst, hfirstLinks⟩
        exact hnone first hfirst hfirstLinks
  refine ⟨input.missingKey key, hfails, hcases, hright, ?_⟩
  intro hplain
  rw [hright]
  intro entity hentity hlinks
  exact ⟨entity, hentity, hlinks.first (hplain entity hentity)⟩

end Plan

namespace Sample

/-- Bookings with the host of the room. -/
def roomCalls : List PlannerCall := [
  .read bookings [⟨"listing", none⟩, ⟨"amount", none⟩],
  .read rooms [⟨"listing", none⟩, ⟨"host", none⟩],
  .join 0 [{ node := 1, keys := ["listing"], qualifier := some "room" }]]

def listingKeys : GroupKeys := ⟨["listing", "listing__city"], by decide⟩

theorem listing_city_needs_join :
    ∃ node ∈ (Session.run roomCalls).nodes, node.HasEntity "room__host" ∧
      node.Groups "listing" ∧ ¬ node.Groups "listing__city" ∧
      node.aggregateBy listingKeys [⟨"amount", .sum⟩] {} =
        (.error (.aggregationBeforeJoin "listing__city" "listing"), {}) ∧
      node.Diagnoses "listing__city" (.aggregationBeforeJoin "listing__city" "listing") := by
  have hnode : ∃ node ∈ (Session.run roomCalls).nodes, node.HasEntity "room__host" ∧
      node.HasEntity "listing" ∧ node.Groups "listing" ∧ ¬ node.Groups "listing__city" := by
    decide +kernel
  rcases hnode with ⟨node, hmem, hhost, hentity, hgroups, hmissing⟩
  have hkeys : listingKeys.names = ["listing"] ++ "listing__city" :: [] := rfl
  have hlinks : LinksThrough "listing" "listing__city" := ⟨"city", by decide⟩
  have hfirst : LinksFirst "listing" "listing__city" := hlinks.first (by unfold Unqualified; decide)
  rcases Plan.aggregateBy_missing_key ⟨roomCalls, hmem⟩ hkeys (by simpa using hgroups) hmissing
      [⟨"amount", .sum⟩] {} with ⟨failure, hfails, hcause, hright, -⟩
  have hdiagnoses := hright.mpr fun _ _ _ => ⟨"listing", hentity, hfirst⟩
  rcases hcause with ⟨entity, -, hother, rfl⟩ | ⟨hnone, -⟩
  · rw [hother.unique hfirst] at hfails hdiagnoses
    exact ⟨node, hmem, hhost, hgroups, hmissing, hfails, hdiagnoses⟩
  · exact absurd hfirst (hnone "listing" hentity)

def hostKeys : GroupKeys := ⟨["room__host__city"], by decide⟩

/-- The join has prefixed the host, and the key is taken for one that is linked through a room. -/
theorem room_host_overlooked :
    ∃ node ∈ (Session.run roomCalls).nodes, node.HasEntity "room__host" ∧
      LinksThrough "room__host" "room__host__city" ∧
      node.aggregateBy hostKeys [⟨"amount", .sum⟩] {} =
        (.error (.missingDimension .aggregate "room__host__city"), {}) ∧
      ¬ node.Diagnoses "room__host__city" (.missingDimension .aggregate "room__host__city") := by
  have hnode : ∃ node ∈ (Session.run roomCalls).nodes, node.HasEntity "room__host" ∧
      ¬ node.HasEntity "room" ∧ ¬ node.Groups "room__host__city" := by
    decide +kernel
  rcases hnode with ⟨node, hmem, hhost, hroom, hmissing⟩
  have hbuilt : node.Built := ⟨roomCalls, hmem⟩
  have hlinks : LinksThrough "room__host" "room__host__city" := ⟨"city", by decide⟩
  have hkeys : hostKeys.names = [] ++ "room__host__city" :: [] := rfl
  have hfails := Plan.aggregateBy_of_missing hbuilt.nodup hkeys (by simp) hmissing
    [⟨"amount", .sum⟩] {}
  have hprefix : LinksThrough "room" "room__host__city" := ⟨"host__city", by decide⟩
  have hfirst : LinksFirst "room" "room__host__city" := hprefix.first (by unfold Unqualified; decide)
  rcases Plan.missingKey_cases hbuilt.nodup "room__host__city" with
    ⟨entity, hentity, hother, -⟩ | ⟨-, hcause⟩
  · rw [hother.unique hfirst] at hentity
    exact absurd hentity hroom
  · rw [hcause] at hfails
    refine ⟨node, hmem, hhost, hlinks, hfails, ?_⟩
    rintro (⟨entity, -, -, hfailure⟩ | ⟨hnone, -⟩)
    · cases hfailure
    · exact hnone "room__host" hhost hlinks

end Sample

end MetricSql
