import Mathlib.Algebra.Order.Ring.Nat

/-! Rate limits of keys: each pass of a key counts for its time to live, and a key passes only while
fewer than its limit count. -/

namespace RateLimit

variable {K : Type} [DecidableEq K]

/-- The passes, newest first: the key and the time of each. -/
abbrev Log (K : Type) := List (K × ℕ)

/-- How many passes of a key still count. -/
def counting (log : Log K) (k : K) (ttl now : ℕ) : ℕ :=
  log.countP fun p => decide (p.1 = k ∧ now < p.2 + ttl)

/-- How many of them were in the window that opens at `s`. -/
def within (log : Log K) (k : K) (ttl s : ℕ) : ℕ :=
  log.countP fun p => decide (p.1 = k ∧ s ≤ p.2 ∧ p.2 < s + ttl)

/-- No key ever passed when its limit was used up. -/
inductive Limited (limit ttl : K → ℕ) : Log K → Prop
  | nil : Limited limit ttl []
  | pass {log : Log K} {k : K} {now : ℕ} (limited : Limited limit ttl log)
      (free : counting log k (ttl k) now < limit k) : Limited limit ttl ((k, now) :: log)

@[simp] theorem within_nil (k : K) (ttl s : ℕ) : within [] k ttl s = 0 := rfl

theorem within_cons_self (log : Log K) {k : K} {ttl s now : ℕ} (opened : s ≤ now)
    (closes : now < s + ttl) : within ((k, now) :: log) k ttl s = within log k ttl s + 1 := by
  simp [within, opened, closes]

theorem within_le_cons (log : Log K) (p : K × ℕ) (k : K) (ttl s : ℕ) :
    within log k ttl s ≤ within (p :: log) k ttl s := by
  rw [within, within, List.countP_cons]
  omega

/-- What was in the window still counts in it. -/
theorem within_le_counting (log : Log K) (k : K) {ttl s now : ℕ} (closes : now < s + ttl) :
    within log k ttl s ≤ counting log k ttl now := by
  apply List.countP_mono_left
  intro p _ inside
  simp only [decide_eq_true_eq] at inside ⊢
  obtain ⟨same, opened, -⟩ := inside
  exact ⟨same, by omega⟩

/-- No window of a key's time to live holds more passes than its limit. -/
theorem Limited.within_le {limit ttl : K → ℕ} {log : Log K} (limited : Limited limit ttl log)
    (k : K) (s : ℕ) : within log k (ttl k) s ≤ limit k := by
  induction limited with
  | nil => simp
  | @pass log k' now _ free ih =>
    by_cases inside : k' = k ∧ s ≤ now ∧ now < s + ttl k
    · obtain ⟨rfl, opened, closes⟩ := inside
      rw [within_cons_self log opened closes]
      have older := within_le_counting log k' closes
      omega
    · have same : within ((k', now) :: log) k (ttl k) s = within log k (ttl k) s := by
        simp only [within, List.countP_cons, inside, decide_false, Bool.false_eq_true, if_false,
          Nat.add_zero]
      rw [same]
      exact ih

end RateLimit
