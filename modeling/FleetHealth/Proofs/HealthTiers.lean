import Mathlib.Data.List.Forall2
import FleetHealth.Health
/-!
Tiers in their order. The worst of a group is its least upper bound, and healthy exactly if all
members are; where no member gets worse, neither does the worst, and no fewer are healthy.
-/
namespace FleetHealth

theorem forall₂_map_map_iff {α β γ : Type} {R : β → γ → Prop} {f : α → β} {g : α → γ}
    {xs : List α} : List.Forall₂ R (xs.map f) (xs.map g) ↔ ∀ x ∈ xs, R (f x) (g x) := by
  rw [List.forall₂_map_left_iff, List.forall₂_map_right_iff, List.forall₂_same]

namespace Health

variable {a b c : Health} {tiers tiers' : List Health}

theorem le_refl (a : Health) : a ≤ a := Nat.le_refl a.rank

theorem le_trans (first : a ≤ b) (second : b ≤ c) : a ≤ c := Nat.le_trans first second

theorem le_antisymm (first : a ≤ b) (second : b ≤ a) : a = b := by
  have ranks : a.rank = b.rank := Nat.le_antisymm first second
  cases a <;> cases b <;> first | rfl | cases ranks

theorem healthy_le (a : Health) : healthy ≤ a := Nat.zero_le a.rank

theorem le_critical (a : Health) : a ≤ critical := by cases a <;> decide

theorem le_healthy_iff : a ≤ healthy ↔ a = healthy := by cases a <;> decide

theorem critical_le_iff : critical ≤ a ↔ a = critical := by cases a <;> decide

theorem worse_le_iff : worse a b ≤ c ↔ a ≤ c ∧ b ≤ c := by
  cases a <;> cases b <;> cases c <;> decide

theorem worst_singleton (a : Health) : worst [a] = a := by cases a <;> rfl

theorem worst_le_iff : worst tiers ≤ c ↔ ∀ t ∈ tiers, t ≤ c := by
  induction tiers with
  | nil =>
    constructor
    · intro _ t inside
      cases inside
    · intro _
      exact healthy_le c
  | cons t rest ih =>
    have step : worst (t :: rest) = worse t (worst rest) := rfl
    rw [step, worse_le_iff, ih, List.forall_mem_cons]

theorem le_worst (inside : a ∈ tiers) : a ≤ worst tiers :=
  worst_le_iff.mp (le_refl (worst tiers)) a inside

theorem worst_eq_critical (inside : critical ∈ tiers) : worst tiers = critical :=
  critical_le_iff.mp (le_worst inside)

theorem worst_mem (filled : tiers ≠ []) : worst tiers ∈ tiers := by
  induction tiers with
  | nil => exact absurd rfl filled
  | cons t rest ih =>
    have step : worst (t :: rest) = if t ≤ worst rest then worst rest else t := rfl
    rw [step]
    split
    case isTrue above =>
      by_cases alone : rest = []
      · subst alone
        rw [← le_antisymm (healthy_le t) above]
        exact List.mem_cons_self
      · exact List.mem_cons_of_mem t (ih alone)
    case isFalse => exact List.mem_cons_self

/-- Groups rolled up one by one and then together are as healthy as all their members at once. -/
theorem worst_flatten (groups : List (List Health)) :
    worst groups.flatten = worst (groups.map worst) := by
  have bounds : ∀ c, worst groups.flatten ≤ c ↔ worst (groups.map worst) ≤ c := by
    intro c
    simp only [worst_le_iff, List.forall_mem_map, List.mem_flatten]
    constructor
    · intro all group listed t inside
      exact all t ⟨group, listed, inside⟩
    · intro all t h
      obtain ⟨group, listed, inside⟩ := h
      exact all group listed t inside
  exact le_antisymm ((bounds _).mpr (le_refl _)) ((bounds _).mp (le_refl _))

/-- The greatest of some tiers, or healthy if there is none. -/
structure IsWorst (among : Health → Prop) (h : Health) : Prop where
  bound : ∀ t, among t → t ≤ h
  attained : among h ∨ h = healthy ∧ ∀ t, ¬among t

theorem isWorst_worst {among : Health → Prop} (members : ∀ t, t ∈ tiers ↔ among t) :
    IsWorst among (worst tiers) := by
  refine ⟨fun t inside => le_worst ((members t).mpr inside), ?_⟩
  by_cases empty : tiers = []
  · subst empty
    refine .inr ⟨rfl, fun t inside => ?_⟩
    cases (members t).mpr inside
  · exact .inl ((members _).mp (worst_mem empty))

theorem worst_eq_healthy_iff : worst tiers = healthy ↔ ∀ t ∈ tiers, t = healthy := by
  rw [← le_healthy_iff, worst_le_iff]
  simp only [le_healthy_iff]

/-- A group whose members are each no worse than before is no worse than before. -/
theorem worst_le_worst (better : List.Forall₂ (fun before after => after ≤ before) tiers tiers') :
    worst tiers' ≤ worst tiers := by
  induction better with
  | nil => exact le_refl healthy
  | @cons before after rest rest' step _ ih =>
    refine worse_le_iff.mpr ⟨le_trans step (le_worst List.mem_cons_self), le_trans ih ?_⟩
    exact (worse_le_iff.mp (le_refl (worst (before :: rest)))).2

theorem count_healthy_le (better : List.Forall₂ (fun before after => after ≤ before) tiers tiers') :
    tiers.count healthy ≤ tiers'.count healthy := by
  induction better with
  | nil => exact Nat.le_refl 0
  | @cons before after rest rest' step _ ih =>
    rw [List.count_cons, List.count_cons]
    by_cases well : before = healthy
    · subst well
      rw [le_healthy_iff.mp step]
      omega
    · rw [beq_false_of_ne well]
      simp only [Bool.false_eq_true, if_false]
      omega

end Health
end FleetHealth
