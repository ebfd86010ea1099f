import MetricSql.Failure
import MetricSql.Manifest.Basic
import MetricSql.Request
import MetricSql.Text.Nearest

/-!
# Group items of a request

A group item names an element of the anchor, or a dimension of another model that is reached through an entity
of the anchor.  The items are sorted into the elements to read from the anchor and from each linked model;
link entities and the bounds of validity windows are added where they are not asked for.
-/

namespace MetricSql

namespace Manifest

/-- The linked form of a bare name, else the nearest name that could be grouped by. -/
def suggestLocal? (manifest : Manifest) (anchor : Model) (name : String) : Option String :=
  let linked := anchor.entities.flatMap fun entity => manifest.linkedNames entity.name anchor.name
  match linked.find? fun candidate => ("__" ++ name).toList.isSuffixOf candidate.toList with
  | some candidate => some candidate
  | none =>
    Text.nearest? name (anchor.entities.map (·.name) ++ anchor.dimensions.map (·.name) ++ linked)

def resolveLocal (manifest : Manifest) (anchor : Model) (item : GroupItem) : Except Failure Unit :=
  match anchor.element? item.name with
  | some (.entity _) | some (.dimension _) => .ok ()
  | _ =>
    .error (.unresolvedElement .request ("group-by items of semantic model '" ++ anchor.name ++ "'") item.name
      (manifest.suggestLocal? anchor item.name))

/-- The model of a dimension that is reached through an entity of the anchor. -/
def resolveLinked (manifest : Manifest) (anchor : Model) (entity : String) (item : GroupItem) :
    Except Failure Model :=
  match anchor.entity? entity with
  | none =>
    .error (.unresolvedElement .request ("entities of semantic model '" ++ anchor.name ++ "'") entity
      (Text.nearest? entity (anchor.entities.map (·.name))))
  | some _ =>
    match manifest.linkedModel? entity item.name anchor.name with
    | some model => .ok model
    | none =>
      let name := qualified entity item.name
      .error (.unresolvedElement .request ("semantic models linked through entity '" ++ entity ++ "'") name
        (Text.nearest? name (manifest.linkedNames entity anchor.name)))

end Manifest

/-- The elements to read from a model that is joined through an entity. -/
structure LinkedRead where
  entity : String
  model : Model
  elements : List ElementRef

namespace LinkedRead

def isThrough (entity model : String) (read : LinkedRead) : Bool :=
  read.entity == entity && read.model.name == model

/-- The reads with one more element, in the read of the same entity and model if there is one. -/
def add (entity : String) (model : Model) (element : ElementRef) : List LinkedRead → List LinkedRead
  | [] => [⟨entity, model, [⟨entity, none⟩, element]⟩]
  | read :: rest =>
    if read.isThrough entity model.name then { read with elements := read.elements ++ [element] } :: rest
    else read :: add entity model element rest

/-- The read with a bound of the validity window that is not truncated. -/
def addBound (read : LinkedRead) (bound : String) : LinkedRead :=
  if read.elements.any fun e => e.grain.isNone && e.name == bound then read
  else { read with elements := read.elements ++ [⟨bound, none⟩] }

/-- The read with the bounds of the validity window, and the time of the anchor that lies in it. -/
def addWindow (anchor : Model) (read : LinkedRead) : Except Failure (LinkedRead × Option String) :=
  match read.model.window with
  | none => .ok (read, none)
  | some window =>
    match anchor.timeDimension? with
    | none => .error (.missingWindowTime anchor.name read.model.name)
    | some time => .ok ((read.addBound window.start).addBound window.stop, some time.name)

/-- The reads with the bounds of their windows, and the time of the anchor if there is a window. -/
def addWindows (anchor : Model) : List LinkedRead → Except Failure (List LinkedRead × Option String)
  | [] => .ok ([], none)
  | read :: rest => do
    let (read, time) ← read.addWindow anchor
    let (others, otherTime) ← addWindows anchor rest
    return (read :: others, otherTime.or time)

end LinkedRead

/-- What has to be read: from the anchor, and from the models linked to it through `links`. -/
structure Grouping where
  elements : List ElementRef := []
  links : List String := []
  linked : List LinkedRead := []

namespace Grouping

def addItem (manifest : Manifest) (anchor : Model) (grouping : Grouping) (item : GroupItem) :
    Except Failure Grouping :=
  match item.via with
  | none => do
    manifest.resolveLocal anchor item
    return { grouping with elements := grouping.elements ++ [item.element] }
  | some entity => do
    let model ← manifest.resolveLinked anchor entity item
    let links := if grouping.links.contains entity then grouping.links else grouping.links ++ [entity]
    return { grouping with links, linked := LinkedRead.add entity model item.element grouping.linked }

end Grouping

/-- The elements with one of that name, unless a column of that name is there already. -/
def addElement (elements : List ElementRef) (name : String) : List ElementRef :=
  if elements.any (·.columnName == name) then elements else elements ++ [⟨name, none⟩]

/-- The items sorted by model. -/
def Manifest.resolveGroups (manifest : Manifest) (anchor : Model) (items : List GroupItem) :
    Except Failure Grouping :=
  items.foldlM (Grouping.addItem manifest anchor) {}

end MetricSql
