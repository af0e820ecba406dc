import Mathlib.Algebra.BigOperators.Group.List.Basic
import Mathlib.Algebra.Ring.Nat
import CommPlatform.Core.Runs

/-!
# The daily upload allowance

`allowance.py` for one account: a counter for each day, charged and given
back by any number of workers, one command at a time. A key expires two days
after its first charge at the earliest.
-/
namespace CommPlatform.Server

open CommPlatform.Core

/-- A reservation that was charged and not given back; a refused one still has to be. -/
structure Reservation where
  day : Nat
  nbytes : Nat
  granted : Bool
deriving DecidableEq

structure Allowance where
  today : Nat
  counter : Nat → Int
  reservations : List Reservation

namespace Allowance

variable (dailyBytes : Nat)

/-- The charge of a call that read the day `day`, and its verdict.
mirrors allowance.py:41-69 -/
def reserve (day nbytes : Nat) (s : Allowance) : Allowance :=
  let reserved := s.counter day + nbytes
  { s with
    counter := Function.update s.counter day reserved
    reservations := ⟨day, nbytes, reserved ≤ dailyBytes⟩ :: s.reservations }

/-- Gives a reservation back, to the key it was charged to. mirrors allowance.py:72-83 -/
def refund (r : Reservation) (s : Allowance) : Allowance :=
  { s with
    counter := Function.update s.counter r.day (s.counter r.day - r.nbytes)
    reservations := s.reservations.erase r }

/-- The commands of all workers, in any order. No call takes two days to charge. -/
inductive Step : Allowance → Allowance → Prop
  | midnight (s : Allowance) : Step s { s with today := s.today + 1 }
  | reserve (s : Allowance) (day nbytes : Nat) (h : day ≤ s.today ∧ s.today < day + 2) :
      Step s (s.reserve dailyBytes day nbytes)
  | refund (s : Allowance) (r : Reservation) (h : r ∈ s.reservations) : Step s (s.refund r)
  | expire (s : Allowance) (day : Nat) (h : day + 2 ≤ s.today) :
      Step s { s with counter := Function.update s.counter day 0 }

def system : System Allowance where
  init s := s.counter = (fun _ => 0) ∧ s.reservations = []
  step := Step dailyBytes

/-- The bytes of the reservations of a day of which `p` holds. -/
def spent (l : List Reservation) (day : Nat) (p : Reservation → Bool) : Nat :=
  ((l.filter fun r => r.day == day && p r).map (·.nbytes)).sum

variable {l : List Reservation} {r : Reservation} {day : Nat} {p : Reservation → Bool}

theorem spent_cons :
    spent (r :: l) day p = (if r.day = day ∧ p r then r.nbytes else 0) + spent l day p := by
  unfold spent
  split_ifs with h <;> simp [h]

theorem spent_erase (h : r ∈ l) :
    spent l day p = (if r.day = day ∧ p r then r.nbytes else 0) + spent (l.erase r) day p := by
  rw [← spent_cons]
  exact (((List.perm_cons_erase h).filter _).map _).sum_eq

theorem spent_le : spent l day p ≤ spent l day fun _ => true := by
  induction l with
  | nil => exact Nat.le_refl _
  | cons r l ih =>
    rw [spent_cons, spent_cons]
    split_ifs <;> first | omega | simp_all

/-- The counter of a day that can still be charged is what its open reservations come to. -/
theorem system_inductive : (system dailyBytes).Inductive fun s =>
    (∀ day, spent s.reservations day (·.granted) ≤ dailyBytes) ∧
      ∀ day, s.today < day + 2 → s.counter day = spent s.reservations day fun _ => true where
  init s h := by simp [spent, h.1, h.2]
  step s s' h hstep := by
    obtain ⟨hle, hcounter⟩ := h
    cases hstep with
    | midnight => exact ⟨hle, fun day hday => hcounter day (by dsimp only at hday; omega)⟩
    | reserve day nbytes hday =>
      refine ⟨fun day' => ?_, fun day' hday' => ?_⟩ <;> simp only [reserve, spent_cons]
      · have hspent := @spent_le s.reservations day (·.granted)
        have := hle day'
        have := hcounter day hday.2
        split_ifs with hgranted
        · obtain ⟨rfl, hgranted⟩ := hgranted
          simp only [decide_eq_true_eq] at hgranted
          omega
        · omega
      · have := hcounter day' hday'
        by_cases hd : day = day'
        · subst hd; simp; omega
        · simp [hd, Ne.symm hd, this]
    | refund r hr =>
      refine ⟨fun day => ?_, fun day hday => ?_⟩
      · have := @spent_erase _ _ day (·.granted) hr
        have := hle day
        simp only [refund]
        omega
      · have := @spent_erase _ _ day (fun _ => true) hr
        have := hcounter day hday
        by_cases hd : r.day = day
        · subst hd; simp [refund] at *; omega
        · simp [refund, hd, Ne.symm hd] at *; omega
    | expire day hday =>
      refine ⟨hle, fun day' hday' => ?_⟩
      dsimp only at hday' ⊢
      rw [Function.update_of_ne (by omega)]
      exact hcounter day' hday'

/-- In every run the granted bytes of a day stay within the allowance, a reservation that was given
back leaves nothing in the counter, and giving it back touches the day it was charged to only. -/
theorem allowance_holds (s : Allowance) (hs : (system dailyBytes).Reachable s) :
    (∀ day, spent s.reservations day (·.granted) ≤ dailyBytes) ∧
      (∀ day, s.today < day + 2 → s.counter day = spent s.reservations day fun _ => true) ∧
      ∀ r ∈ s.reservations, ∀ day, day ≠ r.day → (s.refund r).counter day = s.counter day := by
  obtain ⟨hle, hcounter⟩ := (system_inductive dailyBytes).reachable hs
  exact ⟨hle, hcounter, fun r _ day hday => Function.update_of_ne hday _ _⟩

/-- A charge that is refused and given back, two that are granted, and the expiry of their key. -/
theorem allowance_holds_refused : ∃ s, (system 100).Reachable s ∧ s.today = 5 ∧ s.counter 3 = 0 ∧
    s.reservations = [⟨3, 60, true⟩, ⟨3, 40, true⟩] ∧
      spent s.reservations 3 (·.granted) ≤ 100 := by
  have hstart : (system 100).Reachable ⟨3, fun _ => 0, []⟩ := .init ⟨rfl, rfl⟩
  have hrefused := (hstart.step (.reserve _ 3 40 (by decide))).step (.reserve _ 3 70 (by decide))
  have hrefunded := hrefused.step (.refund _ ⟨3, 70, false⟩ (by decide))
  have hfull := hrefunded.step (.reserve _ 3 60 (by decide))
  have hexpired := ((hfull.step (.midnight _)).step (.midnight _)).step (.expire _ 3 (by decide))
  exact ⟨_, hexpired, rfl, rfl, by decide, (allowance_holds 100 _ hexpired).1 3⟩

/-- A call that charges the day it read two days later meets an expired key, and the day is granted
twice. -/
theorem late_charge : ∃ s, (system 100).Reachable s ∧ s.today = 2 ∧
    spent (s.reserve 100 0 100).reservations 0 (·.granted) = 200 := by
  have hstart : (system 100).Reachable ⟨0, fun _ => 0, []⟩ := .init ⟨rfl, rfl⟩
  have hcharged := hstart.step (.reserve _ 0 100 (by decide))
  have hexpired := ((hcharged.step (.midnight _)).step (.midnight _)).step
    (.expire _ 0 (by decide))
  exact ⟨_, hexpired, rfl, by decide⟩

end Allowance

end CommPlatform.Server
