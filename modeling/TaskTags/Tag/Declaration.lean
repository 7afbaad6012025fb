import TaskTags.Error
import TaskTags.Tag.Entry
import TaskTags.Yaml.Value

/-!
Tag declarations of documents: a comma separated text, or a list of tags and of lists of tags. A
text in a list is one tag, whatever it contains.
-/

namespace TaskTags

/-- The tag of a scalar. Only an integer of 64 bits is a tag, and no tagged value is. -/
def Tag.ofValue (owner : String) : Yaml.Value → Except Error Tag
  | .str s => .ok (.str s)
  | .num (.int n) =>
    if Json.isInt64 n then .ok (.int n)
    else .error (.invalidTags owner (.badNumber (Decimal.intText n)))
  | .num n => .error (.invalidTags owner (.badNumber (Yaml.Value.numberText n)))
  | v => .error (.invalidTags owner (.badValue v.describe))

namespace TagEntry

def ofItem (owner : String) : Yaml.Value → Except Error TagEntry
  | .list items => (items.mapM (Tag.ofValue owner)).map .list
  | v => (Tag.ofValue owner v).map .single

/-- The entries of a declaration; the owner is named in errors. -/
def ofDeclaration (owner : String) : Yaml.Value → Except Error (List TagEntry)
  | .null => .ok []
  | .str s => .ok ((Text.commaPieces s).map fun piece => .single (.str piece))
  | .list items => items.mapM (ofItem owner)
  | _ => .error (.invalidTags owner .notAList)

end TagEntry
end TaskTags
