import Mathlib.Data.List.Nodup

/-!
# A pool of rows that takers lock, hand out and delete

Rows stand in a table with a unique key. A taker locks rows no other taker
has locked, and either gives them back or deletes them and hands them out.
Rows may be added, where a taken key is left alone, and unlocked rows may be
removed.

* `Inv.once`: under the invariant nothing is handed out twice.
-/
namespace CommPlatform.Core

/-- The rows of a table, those each taker has locked, and those handed out. -/
structure LockedPool (ι α : Type*) where
  rows : List α
  held : ι → List α
  out : List α

namespace LockedPool

variable {ι α κ : Type*} (key : α → κ) (p : LockedPool ι α)

def insert [DecidableEq κ] (new : List α) : LockedPool ι α :=
  { p with rows := p.rows ++ new.filter fun a => key a ∉ p.rows.map key }

def take [DecidableEq ι] (i : ι) (a : α) : LockedPool ι α :=
  { p with held := Function.update p.held i (p.held i ++ [a]) }

def abort [DecidableEq ι] (i : ι) : LockedPool ι α := { p with held := Function.update p.held i [] }

def handOut [DecidableEq ι] [DecidableEq α] (i : ι) (l : List α) : LockedPool ι α where
  rows := p.rows.filter (· ∉ p.held i)
  held := Function.update p.held i []
  out := p.out ++ l

def remove (gone : α → Bool) : LockedPool ι α := { p with rows := p.rows.filter (!gone ·) }

@[simp] theorem take_held_self [DecidableEq ι] (i : ι) (a : α) :
    (p.take i a).held i = p.held i ++ [a] :=
  Function.update_self _ _ _

@[simp] theorem take_held_of_ne [DecidableEq ι] {i j : ι} (h : j ≠ i) (a : α) :
    (p.take i a).held j = p.held j :=
  Function.update_of_ne h _ _

@[simp] theorem abort_held_self [DecidableEq ι] (i : ι) : (p.abort i).held i = [] :=
  Function.update_self _ _ _

@[simp] theorem abort_held_of_ne [DecidableEq ι] {i j : ι} (h : j ≠ i) :
    (p.abort i).held j = p.held j :=
  Function.update_of_ne h _ _

/-- A locked row is in the table and has one taker; what was handed out is not in the table. -/
structure Inv : Prop where
  unique : (p.rows.map key).Nodup
  mem : ∀ i, ∀ a ∈ p.held i, a ∈ p.rows
  nodup : ∀ i, (p.held i).Nodup
  exclusive : ∀ i j a, a ∈ p.held i → a ∈ p.held j → i = j
  once : p.out.Nodup
  gone : ∀ a ∈ p.rows, a ∉ p.out

variable {key p}

namespace Inv

variable (h : p.Inv key)
include h

theorem insert [DecidableEq κ] {new : List α} (hnew : (new.map key).Nodup)
    (hout : ∀ a ∈ new, a ∉ p.out) : (p.insert key new).Inv key := by
  refine ⟨?_, fun i a ha => List.mem_append_left _ (h.mem i a ha), h.nodup, h.exclusive, h.once, ?_⟩
  · rw [LockedPool.insert, List.map_append]
    refine List.nodup_append'.mpr ⟨h.unique, (List.filter_sublist.map key).nodup hnew, ?_⟩
    intro k hk hnew'
    obtain ⟨a, ha, rfl⟩ := List.mem_map.mp hnew'
    exact of_decide_eq_true (List.mem_filter.mp ha).2 hk
  · intro a ha
    rcases List.mem_append.mp ha with ha | ha
    · exact h.gone a ha
    · exact hout a (List.mem_filter.mp ha).1

theorem take [DecidableEq ι] {i : ι} {a : α} (ha : a ∈ p.rows)
    (hfree : ∀ j, a ∉ p.held j) : (p.take i a).Inv key := by
  -- who holds what after the taking
  have hheld : ∀ j b, b ∈ (p.take i a).held j → b ∈ p.held j ∨ j = i ∧ b = a := by
    intro j b hb
    by_cases hj : j = i
    · subst hj
      rw [take_held_self, List.mem_append, List.mem_singleton] at hb
      exact hb.imp_right fun hb => ⟨rfl, hb⟩
    · rw [take_held_of_ne p hj] at hb
      exact .inl hb
  refine ⟨h.unique, fun j b hb => ?_, fun j => ?_, fun j k b hj hk => ?_, h.once, h.gone⟩
  · rcases hheld j b hb with hb | ⟨-, rfl⟩
    · exact h.mem j b hb
    · exact ha
  · by_cases hj : j = i
    · subst hj
      rw [take_held_self]
      exact List.nodup_append'.mpr ⟨h.nodup j, List.nodup_singleton a,
        fun b hb hba => hfree j (List.mem_singleton.mp hba ▸ hb)⟩
    · rw [take_held_of_ne p hj]
      exact h.nodup j
  · rcases hheld j b hj with hj | ⟨hji, hba⟩ <;> rcases hheld k b hk with hk | ⟨hki, hba'⟩
    · exact h.exclusive j k b hj hk
    · exact absurd (hba' ▸ hj) (hfree j)
    · exact absurd (hba ▸ hk) (hfree k)
    · exact hji.trans hki.symm

theorem abort [DecidableEq ι] (i : ι) : (p.abort i).Inv key := by
  have hheld : ∀ j b, b ∈ (p.abort i).held j → b ∈ p.held j := by
    intro j b hb
    by_cases hj : j = i
    · subst hj
      rw [abort_held_self] at hb
      cases hb
    · rwa [abort_held_of_ne p hj] at hb
  refine ⟨h.unique, fun j b hb => h.mem j b (hheld j b hb), fun j => ?_,
    fun j k b hj hk => h.exclusive j k b (hheld j b hj) (hheld k b hk), h.once, h.gone⟩
  by_cases hj : j = i
  · subst hj
    rw [abort_held_self]
    exact List.nodup_nil
  · rw [abort_held_of_ne p hj]
    exact h.nodup j

theorem remove {gone : α → Bool} (hfree : ∀ i, ∀ a ∈ p.held i, gone a = false) :
    (p.remove gone).Inv key where
  unique := (List.filter_sublist.map key).nodup h.unique
  mem i a ha := List.mem_filter.mpr ⟨h.mem i a ha, by rw [hfree i a ha]; rfl⟩
  nodup := h.nodup
  exclusive := h.exclusive
  once := h.once
  gone a ha := h.gone a (List.mem_filter.mp ha).1

/-- Handing out what one holds: the rows are gone from the table before anyone else can take
them. -/
theorem handOut [DecidableEq ι] [DecidableEq α] {i : ι} {l : List α} (hl : l.Nodup)
    (hsub : l ⊆ p.held i) : (p.handOut i l).Inv key := by
  have habort := h.abort i
  refine ⟨(List.filter_sublist.map key).nodup h.unique, fun j a ha => ?_, habort.nodup,
    habort.exclusive, ?_, fun a ha => ?_⟩
  · -- what another taker holds, this one does not
    refine List.mem_filter.mpr ⟨habort.mem j a ha, decide_eq_true fun hi => ?_⟩
    change a ∈ (p.abort i).held j at ha
    by_cases hj : j = i
    · subst hj
      rw [abort_held_self] at ha
      cases ha
    · rw [abort_held_of_ne p hj] at ha
      exact hj (h.exclusive j i a ha hi)
  · exact List.nodup_append'.mpr ⟨h.once, hl, fun a ha hal => h.gone a (h.mem i a (hsub hal)) ha⟩
  · obtain ⟨hmem, hfree⟩ := List.mem_filter.mp ha
    intro hout
    rcases List.mem_append.mp hout with hout | hout
    · exact h.gone a hmem hout
    · exact of_decide_eq_true hfree (hsub hout)

end Inv

end LockedPool

end CommPlatform.Core
