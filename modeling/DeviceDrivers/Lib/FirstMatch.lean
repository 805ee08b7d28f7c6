import Mathlib.Data.List.Basic

/-!
# Tables that are searched from the front

A table is a list. A lookup returns the first entry with a key, a removal takes
the first entry with a key away, a new entry goes to the front. The lemmas say
what a removal does to a lookup and to the entries of one owner.
-/

namespace DeviceDrivers.FirstMatch

variable {α : Type} {p q : α → Bool}

/-- A removal under one key does not change a lookup under a key that no entry
shares with it. -/
theorem find?_eraseP (h : ∀ x, q x = true → p x = false) (l : List α) :
    (l.eraseP q).find? p = l.find? p := by
  induction l with
  | nil => rfl
  | cons x l ih =>
    cases hq : q x with
    | true => simp [hq, h x hq]
    | false =>
      rw [List.eraseP_cons_of_neg (by simp [hq]), List.find?_cons, List.find?_cons, ih]

/-- The only entry with a key is found. -/
theorem find?_of_only {l : List α} {x : α} (hx : x ∈ l) (hq : q x = true)
    (honly : ∀ y ∈ l, q y = true → y = x) : l.find? q = some x := by
  cases hfind : l.find? q with
  | none => simp [List.find?_eq_none.mp hfind x hx] at hq
  | some y => rw [honly y (List.mem_of_find?_eq_some hfind) (List.find?_some hfind)]

/-- The entry found under a wide key is found under a narrower one that it has. -/
theorem find?_narrow {l : List α} {x : α} (h : l.find? p = some x)
    (hqp : ∀ y, q y = true → p y = true) (hx : q x = true) : l.find? q = some x := by
  obtain ⟨_, as, bs, rfl, has⟩ := List.find?_eq_some_iff_append.mp h
  refine List.find?_eq_some_iff_append.mpr ⟨hx, as, bs, rfl, fun a ha => ?_⟩
  have hpa := has a ha
  cases hq : q a with
  | false => rfl
  | true => simp [hqp a hq] at hpa

/-- The list around the entry that a lookup finds, and what the removal leaves. -/
theorem eraseP_of_find? {l : List α} {x : α} (h : l.find? q = some x) :
    ∃ as bs, l = as ++ x :: bs ∧ l.eraseP q = as ++ bs := by
  obtain ⟨hx, as, bs, rfl, has⟩ := List.find?_eq_some_iff_append.mp h
  refine ⟨as, bs, rfl, ?_⟩
  rw [List.eraseP_append_right _ (fun a ha => by simpa using has a ha), List.eraseP_cons_of_pos hx]

/-- A removal keeps the entries that have not the property of the removed one. -/
theorem filter_eraseP_of_neg {l : List α} {x : α} (h : l.find? q = some x) (hx : p x = false) :
    (l.eraseP q).filter p = l.filter p := by
  obtain ⟨as, bs, hl, herase⟩ := eraseP_of_find? h
  rw [herase, hl]
  simp [hx]

/-- The removed entry is the first one with a property: the others are left. -/
theorem filter_eraseP_cons {l rest : List α} {x : α} (h : l.find? q = some x) (hx : p x = true)
    (hfirst : l.filter p = x :: rest) : (l.eraseP q).filter p = rest := by
  obtain ⟨hqx, as, bs, rfl, has⟩ := List.find?_eq_some_iff_append.mp h
  have hnone : as.filter p = [] := by
    cases hfilter : as.filter p with
    | nil => rfl
    | cons y ys =>
      -- The first entry with the property is `x`, which has the key.
      rw [List.filter_append, hfilter, List.cons_append] at hfirst
      obtain ⟨rfl, -⟩ := List.cons.inj hfirst
      have hmem : y ∈ as := List.mem_of_mem_filter (hfilter ▸ List.mem_cons_self)
      simpa [hqx] using has y hmem
  rw [List.filter_append, hnone, List.filter_cons_of_pos hx] at hfirst
  rw [List.eraseP_append_right _ (fun a ha => by simpa using has a ha),
    List.eraseP_cons_of_pos hqx, List.filter_append, hnone]
  exact List.tail_eq_of_cons_eq hfirst

/-- Removing the only entry with a property leaves none. -/
theorem filter_eraseP_of_pos {l : List α} {x : α} (h : l.find? q = some x) (hx : p x = true)
    (honly : l.filter p = [x]) : (l.eraseP q).filter p = [] := by
  obtain ⟨as, bs, hl, herase⟩ := eraseP_of_find? h
  rw [hl, List.filter_append, List.filter_cons_of_pos hx] at honly
  have hlen := congrArg List.length honly
  simp only [List.length_append, List.length_cons, List.length_nil] at hlen
  have has : as.filter p = [] := List.length_eq_zero_iff.mp (by omega)
  have hbs : bs.filter p = [] := List.length_eq_zero_iff.mp (by omega)
  rw [herase, List.filter_append, has, hbs, List.append_nil]

end DeviceDrivers.FirstMatch
