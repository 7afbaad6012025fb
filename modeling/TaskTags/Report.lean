import TaskTags.Store.Basic
import TaskTags.Diagnostics
import TaskTags.Json.Printer

/-!
The report of a unit of work: the values of a store at a verbosity, the difference, the facts and
the diagnostics, as one JSON object.
-/

namespace TaskTags

structure ReportOptions where
  verbosity : Nat
  diffMode : Bool
  /-- The name under which the facts stand. -/
  factsName : Option String
  changed : Bool
  message : String
deriving Inhabited

structure Report where
  changed : Bool
  message : String
  diff : Option ValueDiff
  facts : Option Json
  values : Bindings
  diagnostics : Diagnostics
deriving Inhabited

namespace Report

def factsObject (options : ReportOptions) (facts : Bindings) : Json :=
  let object := Json.obj (Json.sortFields facts)
  match options.factsName with
  | some name => .obj [(name, object)]
  | none => object

/-- The report on a store; it takes the diagnostics with it. -/
def ofStore (s : VariableStore) (options : ReportOptions) (d : Diagnostics) :
    Report × Diagnostics :=
  let (drained, rest) := d.drain
  ({ changed := options.changed || s.hasChanged
     message := options.message
     diff := if options.diffMode then s.diff options.verbosity else none
     facts := s.facts.map (factsObject options)
     values := s.output options.verbosity
     diagnostics := drained }, rest)

def deprecationObject (d : Deprecation) : Json :=
  .obj (("msg", .str d.message) ::
    (d.version.toList.map (("version", .str ·)) ++ d.date.toList.map (("date", .str ·)) ++
      d.collection.toList.map (("collection_name", .str ·))))

def diffObject (d : ValueDiff) : Json :=
  .obj [("before", .obj d.before), ("after", .obj d.after)]

/-- The fields of the report; parts that are empty or absent have none. -/
def fields (r : Report) : Bindings :=
  [("changed", Json.bool r.changed)] ++
  (if r.message.isEmpty then [] else [("msg", Json.str r.message)]) ++
  (r.diff.toList.map fun d => ("diff", diffObject d)) ++
  (r.facts.toList.map (("ansible_facts", ·))) ++
  r.values ++
  (if r.diagnostics.warnings.isEmpty then []
    else [("warnings", Json.ofStrings r.diagnostics.warnings)]) ++
  (if r.diagnostics.deprecations.isEmpty then []
    else [("deprecations", .arr (r.diagnostics.deprecations.map deprecationObject))])

def toJson (r : Report) : Json :=
  .obj r.fields

end Report
end TaskTags
