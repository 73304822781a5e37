import Mathlib.Data.List.Basic

/-!
# Layers — settings that later entries override

A record is updated by a list of entries, each of which says something on some of its settings or
nothing.  If one entry changes just what it says, then after any list a setting is what was said
on it last.  A bounded list that entries add to keeps what came first.
-/

namespace Layers

section Override

variable {S E K W : Type*} {get : S → K → W} {store : S → E → S} {said : K → E → Option W}

/-- One entry changes the settings it speaks of, and no others. -/
def Overrides (get : S → K → W) (store : S → E → S) (said : K → E → Option W) : Prop :=
  ∀ s e k, get (store s e) k = (said k e).getD (get s k)

/-- What was said last on a setting. -/
def lastSaid (said : K → E → Option W) (k : K) (entries : List E) : Option W :=
  (entries.filterMap (said k)).getLast?

theorem lastSaid_append (k : K) (lower upper : List E) :
    lastSaid said k (lower ++ upper) = (lastSaid said k upper).or (lastSaid said k lower) := by
  simp [lastSaid, List.filterMap_append, List.getLast?_append]

theorem lastSaid_cons (k : K) (e : E) (entries : List E) :
    lastSaid said k (e :: entries) = (lastSaid said k entries).or (said k e) := by
  rw [← List.singleton_append, lastSaid_append]
  cases hsays : said k e <;> simp [lastSaid, hsays]

/-- After any list of entries a setting is what was said on it last. -/
theorem get_foldl (h : Overrides get store said) (entries : List E) (s : S) (k : K) :
    get (entries.foldl store s) k = (lastSaid said k entries).getD (get s k) := by
  induction entries generalizing s with
  | nil => rfl
  | cons e entries ih =>
      rw [List.foldl_cons, ih, h, lastSaid_cons]
      cases lastSaid said k entries <;> rfl

end Override

section Collect

variable {S E A : Type*} {items : S → List A} {store : S → E → S} {adds : E → List A} {n : Nat}

/-- What a first cut drops, a later one would drop. -/
theorem take_take_append (l₁ l₂ : List A) : (l₁.take n ++ l₂).take n = (l₁ ++ l₂).take n := by
  rcases Nat.le_total l₁.length n with hle | hle
  · rw [List.take_of_length_le hle]
  · rw [List.take_append_of_le_length hle,
      List.take_append_of_le_length (by rw [List.length_take]; omega), List.take_take, Nat.min_self]

/-- If each entry adds to a list of at most `n`, then after all of them the first `n` of what was
added are there. -/
theorem items_foldl {entries : List E} {s : S}
    (h : ∀ s, ∀ e ∈ entries, items (store s e) = (items s ++ adds e).take n)
    (hs : (items s).length ≤ n) :
    items (entries.foldl store s) = (items s ++ entries.flatMap adds).take n := by
  induction entries generalizing s with
  | nil => simp [List.take_of_length_le hs]
  | cons e entries ih =>
      have he := h s e List.mem_cons_self
      have hlen : (items (store s e)).length ≤ n := by
        rw [he]
        exact List.length_take_le _ _
      rw [List.foldl_cons, ih (fun s x hx => h s x (List.mem_cons_of_mem _ hx)) hlen, he,
        List.flatMap_cons, ← List.append_assoc, take_take_append]

end Collect

end Layers
