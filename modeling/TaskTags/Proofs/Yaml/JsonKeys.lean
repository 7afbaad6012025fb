import TaskTags.Proofs.Except
import TaskTags.Yaml.Value

/-!
# Values that JSON can hold

A conversion to JSON fails for the keys of mappings alone: each must be a text, a truth value or a
finite number.
-/

namespace TaskTags.Yaml.Value

def isKey : Value → Bool
  | .str _ | .bool _ | .num (.int _) => true
  | .num (.float x) => x.isFinite
  | _ => false

mutual
/-- Whether all mappings in a value have keys for JSON. -/
def fitsJson : Value → Bool
  | .list items => itemsFitJson items
  | .map entries => entriesFitJson entries
  | .tagged _ v => v.fitsJson
  | _ => true

def itemsFitJson : List Value → Bool
  | [] => true
  | v :: rest => v.fitsJson && itemsFitJson rest

def entriesFitJson : List (Value × Value) → Bool
  | [] => true
  | (k, v) :: rest => isKey k && v.fitsJson && entriesFitJson rest
end

theorem keyText_error?_eq_none_iff (k : Value) : (keyText k).error? = none ↔ isKey k = true := by
  cases k with
  | num n =>
      cases n with
      | int n => simp [keyText, isKey, Except.error?]
      | float x =>
          rw [keyText, isKey]
          cases x.isFinite <;> simp [Except.error?]
  | null => simp [keyText, isKey, Except.error?]
  | bool b => simp [keyText, isKey, Except.error?]
  | str s => simp [keyText, isKey, Except.error?]
  | list items => simp [keyText, isKey, Except.error?]
  | map entries => simp [keyText, isKey, Except.error?]
  | tagged tag v => simp [keyText, isKey, Except.error?]

mutual
theorem toJson_error?_eq_none_iff : ∀ v : Value, v.toJson.error? = none ↔ v.fitsJson = true
  | .null | .bool _ | .str _ | .num (.int _) | .num (.float _) => by
      simp [toJson, fitsJson, Except.error?]
  | .list items => by
      rw [toJson, fitsJson, Except.error?_map]
      exact toJsonItems_error?_eq_none_iff items
  | .map entries => by
      rw [toJson, fitsJson, Except.error?_map]
      exact toJsonFields_error?_eq_none_iff entries
  | .tagged _ v => by
      rw [toJson, fitsJson, Except.error?_map]
      exact toJson_error?_eq_none_iff v

theorem toJsonItems_error?_eq_none_iff :
    ∀ items : List Value, (toJsonItems items).error? = none ↔ itemsFitJson items = true
  | [] => by simp [toJsonItems, itemsFitJson, Except.error?]
  | v :: rest => by
      rw [toJsonItems, itemsFitJson,
        Except.error?_bind fun j => Except.error?_bind_pure (toJsonItems rest) (j :: ·),
        Option.or_eq_none_iff, Bool.and_eq_true, toJson_error?_eq_none_iff v,
        toJsonItems_error?_eq_none_iff rest]

theorem toJsonFields_error?_eq_none_iff : ∀ entries : List (Value × Value),
    (toJsonFields entries).error? = none ↔ entriesFitJson entries = true
  | [] => by simp [toJsonFields, entriesFitJson, Except.error?]
  | (k, v) :: rest => by
      have hvalue : ∀ text, (v.toJson >>= fun j => toJsonFields rest >>= fun fields =>
          (pure ((text, j) :: fields) : Except Json.KeyFault (List (String × Json)))).error?
            = v.toJson.error?.or (toJsonFields rest).error? := by
        intro text
        exact Except.error?_bind fun j => Except.error?_bind_pure (toJsonFields rest) ((text, j) :: ·)
      rw [toJsonFields, entriesFitJson, Except.error?_bind hvalue, Option.or_eq_none_iff,
        Option.or_eq_none_iff, Bool.and_eq_true, Bool.and_eq_true, and_assoc,
        keyText_error?_eq_none_iff, toJson_error?_eq_none_iff v,
        toJsonFields_error?_eq_none_iff rest]
end

end TaskTags.Yaml.Value
