import Professord.Lib.CNum
import Professord.Lib.CText

/-!
# Json — parsed JSON values

A value as a C library hands it out: numbers are `double`s, strings are the decoded bytes (of
which C code sees those before the first NUL), and an object is the list of its members in the
order of the text.  Looking a member up ignores ASCII case and takes the first match.
-/

open CText

inductive Json
  | null
  | bool (b : Bool)
  | number (v : CFloat)
  | string (s : Bytes)
  | array (items : List Json)
  | object (members : List (Bytes × Json))

namespace Json

instance : Inhabited Json := ⟨.null⟩

/-- The first member with that name. -/
def getObjectItem (name : Bytes) : Json → Option Json
  | .object members =>
      (members.find? fun m => (cstr m.1).map toLower == name.map toLower).map Prod.snd
  | _ => none

theorem getObjectItem_cons_of_eq {name key : Bytes} (h : (cstr key).map toLower = name.map toLower)
    (v : Json) (members : List (Bytes × Json)) :
    getObjectItem name (.object ((key, v) :: members)) = some v := by
  simp [getObjectItem, h]

theorem getObjectItem_cons_of_ne {name key : Bytes} (h : (cstr key).map toLower ≠ name.map toLower)
    (v : Json) (members : List (Bytes × Json)) :
    getObjectItem name (.object ((key, v) :: members)) = getObjectItem name (.object members) := by
  simp [getObjectItem, h]

end Json
