import DeviceDrivers.Lib.FirstMatch
import Mathlib.Logic.Function.Basic

/-!
# Tables with entries of several owners

`Naming` tells some owners `I` by their names apart from the rest of the world.
`OwnedTable` says what each of them has in a table, the newest entry first, and what
the others have.

`OwnedTable.add` and `OwnedTable.remove`: who adds or removes an entry of its own changes
neither what the others have nor their order.
-/

namespace DeviceDrivers

variable {E I M : Type}

/-- Different owners have different names, and none that counts as foreign. -/
structure Naming (name : I → M) (foreign : M → Bool) : Prop where
  inj : Function.Injective name
  known : ∀ i, foreign (name i) = false

/-- The entries of the owner `i` are `own i`, and the foreign ones `others`. -/
structure OwnedTable [DecidableEq M] (owner : E → M) (name : I → M) (foreign : M → Bool)
    (others : List E) (own : I → List E) (l : List E) : Prop where
  own : ∀ i, l.filter (fun e => owner e = name i) = own i
  others : l.filter (fun e => foreign (owner e)) = others

namespace OwnedTable

variable [DecidableEq M] {owner : E → M} {name : I → M} {foreign : M → Bool}
  {others : List E} {own : I → List E} {l : List E}

/-- An entry of an owner is among those that it has. -/
theorem mem_own (h : OwnedTable owner name foreign others own l) {i : I} {e : E} (he : e ∈ l)
    (howner : owner e = name i) : e ∈ own i := by
  rw [← h.own i, List.mem_filter]
  exact ⟨he, by simp [howner]⟩

theorem mem_of_own (h : OwnedTable owner name foreign others own l) {i : I} {e : E}
    (he : e ∈ own i) : e ∈ l ∧ owner e = name i := by
  rw [← h.own i, List.mem_filter] at he
  exact ⟨he.1, by simpa using he.2⟩

/-- A table in which nobody known has anything. -/
theorem of_foreign (h : ∀ e ∈ l, foreign (owner e) = true) (hn : Naming name foreign) :
    OwnedTable owner name foreign l (fun _ => []) l where
  own i := by
    refine List.filter_eq_nil_iff.mpr fun e he heq => ?_
    have hname : owner e = name i := by simpa using heq
    have hforeign := h e he
    rw [hname, hn.known i] at hforeign
    cases hforeign
  others := List.filter_eq_self.mpr h

variable [DecidableEq I]

/-- Nothing is changed. -/
theorem same (h : OwnedTable owner name foreign others own l) {i : I} {mine : List E}
    (hmine : mine = own i) :
    OwnedTable owner name foreign others (Function.update own i mine) l := by
  rw [hmine, Function.update_eq_self]
  exact h

theorem add (hn : Naming name foreign) (h : OwnedTable owner name foreign others own l) {i : I}
    {e : E} (he : owner e = name i) :
    OwnedTable owner name foreign others (Function.update own i (e :: own i)) (e :: l) where
  own j := by
    by_cases hj : j = i
    · subst hj
      rw [List.filter_cons_of_pos (by simp [he]), h.own j, Function.update_self]
    · have hne : owner e ≠ name j := fun heq => hj (hn.inj (heq.symm.trans he))
      rw [List.filter_cons_of_neg (by simp [hne]), h.own j, Function.update_of_ne hj]
  others := by
    rw [List.filter_cons_of_neg (by simp [he, hn.known i]), h.others]

theorem remove (hn : Naming name foreign) (h : OwnedTable owner name foreign others own l) {i : I}
    {e : E} {rest : List E} {q : E → Bool} (he : owner e = name i) (hown : own i = e :: rest)
    (hq : l.find? q = some e) :
    OwnedTable owner name foreign others (Function.update own i rest) (l.eraseP q) where
  own j := by
    by_cases hj : j = i
    · subst hj
      rw [Function.update_self]
      exact FirstMatch.filter_eraseP_cons hq (by simp [he]) ((h.own j).trans hown)
    · have hne : owner e ≠ name j := fun heq => hj (hn.inj (heq.symm.trans he))
      rw [Function.update_of_ne hj, FirstMatch.filter_eraseP_of_neg hq (by simp [hne])]
      exact h.own j
  others := by
    rw [FirstMatch.filter_eraseP_of_neg hq (by simp [he, hn.known i])]
    exact h.others

end OwnedTable

end DeviceDrivers
