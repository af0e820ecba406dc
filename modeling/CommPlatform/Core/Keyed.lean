import Mathlib.Data.List.Perm.Basic
import Mathlib.Data.List.Nodup

/-!
# Lists with a key

Records in a list that are told apart by a key: looking one up, and
replacing the one with a key. A list without repeated keys is as good as the
map it stands for (`lookup_perm`).
-/
namespace CommPlatform.Core

variable {α κ : Type} [DecidableEq κ]

def lookup (key : α → κ) (l : List α) (k : κ) : Option α := l.find? (key · = k)

def replaceKey (key : α → κ) (k : κ) (replace : α → α) : List α → List α
  | [] => []
  | a :: l => if key a = k then replace a :: l else a :: replaceKey key k replace l

section Lookup

variable {key : α → κ} {l l' : List α} {a : α} {k j : κ} {replace : α → α}

theorem lookup_cons : lookup key (a :: l) k = if key a = k then some a else lookup key l k := by
  unfold lookup
  by_cases h : key a = k <;> simp [h]

theorem lookup_append_singleton :
    lookup key (l ++ [a]) k = (lookup key l k).or (if key a = k then some a else none) := by
  unfold lookup
  by_cases h : key a = k <;> simp [h]

theorem lookup_eq_some (hnodup : (l.map key).Nodup) :
    lookup key l k = some a ↔ a ∈ l ∧ key a = k := by
  constructor
  · intro h
    exact ⟨List.mem_of_find?_eq_some h, by simpa using List.find?_some h⟩
  · rintro ⟨hmem, rfl⟩
    induction l with
    | nil => cases hmem
    | cons b l ih =>
      rw [List.map_cons, List.nodup_cons] at hnodup
      rw [lookup_cons]
      obtain rfl | hmem := List.mem_cons.mp hmem
      · rw [if_pos rfl]
      · have hne : key b ≠ key a := fun heq => hnodup.1 (heq ▸ List.mem_map_of_mem hmem)
        rw [if_neg hne, ih hnodup.2 hmem]

theorem lookup_perm (hperm : l.Perm l') (hnodup : (l'.map key).Nodup) :
    lookup key l k = lookup key l' k := by
  have hnodup' : (l.map key).Nodup := (hperm.map _).nodup_iff.mpr hnodup
  ext a
  rw [lookup_eq_some hnodup', lookup_eq_some hnodup, hperm.mem_iff]

variable (hkey : ∀ a, key a = k → key (replace a) = k)
include hkey

theorem lookup_replaceKey :
    lookup key (replaceKey key k replace l) j =
      if j = k then (lookup key l k).map replace else lookup key l j := by
  induction l with
  | nil => simp [replaceKey, lookup]
  | cons a l ih =>
    unfold replaceKey
    by_cases ha : key a = k
    · rw [if_pos ha, lookup_cons, hkey a ha, lookup_cons, lookup_cons, if_pos ha]
      by_cases hj : j = k
      · rw [if_pos hj, if_pos hj.symm]
        rfl
      · rw [if_neg hj, if_neg (Ne.symm hj), if_neg (by rw [ha]; exact Ne.symm hj)]
    · rw [if_neg ha, lookup_cons, ih, lookup_cons, lookup_cons, if_neg ha]
      by_cases hj : j = k
      · rw [if_pos hj, if_neg (by rw [hj]; exact ha), if_pos hj]
      · rw [if_neg hj, if_neg hj]

theorem map_key_replaceKey : (replaceKey key k replace l).map key = l.map key := by
  induction l with
  | nil => rfl
  | cons a l ih =>
    unfold replaceKey
    split
    · next ha => rw [List.map_cons, List.map_cons, hkey a ha, ha]
    · rw [List.map_cons, List.map_cons, ih]

omit hkey

theorem length_replaceKey : (replaceKey key k replace l).length = l.length := by
  induction l with
  | nil => rfl
  | cons a l ih =>
    unfold replaceKey
    split
    · rfl
    · rw [List.length_cons, ih, List.length_cons]

end Lookup

end CommPlatform.Core
