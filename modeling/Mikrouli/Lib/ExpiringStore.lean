import Mathlib.Logic.Basic

/-! A key-value store whose entries may carry a deadline, after which they are gone. -/

namespace Store

/-- A value and the first millisecond at which it is no longer there; `none` never ends. -/
structure Stamped (V : Type) where
  value : V
  deadline : Option Nat
  deriving DecidableEq, Repr

namespace Stamped

variable {V : Type}

def liveAt (e : Stamped V) (now : Nat) : Bool :=
  match e.deadline with
  | none => true
  | some d => decide (now < d)

theorem liveAt_mono {e : Stamped V} {now later : Nat} (le : now ≤ later)
    (live : e.liveAt later = true) : e.liveAt now = true := by
  unfold liveAt at *
  split
  · rfl
  next d bounded =>
    rw [bounded] at live
    simp only [decide_eq_true_eq] at *
    omega

theorem lt_of_liveAt {e : Stamped V} {now d : Nat} (bounded : e.deadline = some d)
    (live : e.liveAt now = true) : now < d := by
  simpa [liveAt, bounded] using live

end Stamped

def Expiring (K V : Type) := K → Option (Stamped V)

namespace Expiring

variable {K V : Type}

def empty : Expiring K V := fun _ => none

/-- What a read at `now` sees. -/
def get (s : Expiring K V) (now : Nat) (k : K) : Option V :=
  match s k with
  | none => none
  | some e => if e.liveAt now then some e.value else none

@[simp] theorem empty_apply (k : K) : (empty : Expiring K V) k = none := rfl

theorem get_eq_some {s : Expiring K V} {now : Nat} {k : K} {v : V} :
    s.get now k = some v ↔ ∃ e, s k = some e ∧ e.liveAt now = true ∧ e.value = v := by
  unfold get
  split
  next absent => simp [absent]
  next e found =>
    by_cases live : e.liveAt now <;> simp [found, live]

theorem get_eq_none {s : Expiring K V} {now : Nat} {k : K} :
    s.get now k = none ↔ ∀ e, s k = some e → e.liveAt now = false := by
  unfold get
  split
  next absent => simp [absent]
  next e found =>
    by_cases live : e.liveAt now <;> simp [found, live]

/-- Time alone never brings an entry back. -/
theorem get_mono {s : Expiring K V} {now later : Nat} (le : now ≤ later) {k : K} {v : V}
    (found : s.get later k = some v) : s.get now k = some v := by
  obtain ⟨e, entry, live, value⟩ := get_eq_some.mp found
  exact get_eq_some.mpr ⟨e, entry, Stamped.liveAt_mono le live, value⟩

variable [DecidableEq K]

/-- Stores a value; a life of `some n` seconds ends `1000 * n` milliseconds after `now`. -/
def set (s : Expiring K V) (now : Nat) (k : K) (v : V) (life : Option Nat) : Expiring K V :=
  fun k' => if k' = k then some ⟨v, life.map fun n => now + 1000 * n⟩ else s k'

def del (s : Expiring K V) (k : K) : Expiring K V := fun k' => if k' = k then none else s k'

theorem set_apply (s : Expiring K V) (now : Nat) (k k' : K) (v : V) (life : Option Nat) :
    s.set now k v life k' =
      if k' = k then some ⟨v, life.map fun n => now + 1000 * n⟩ else s k' := rfl

theorem del_apply (s : Expiring K V) (k k' : K) :
    s.del k k' = if k' = k then none else s k' := rfl

theorem of_del_eq_some {s : Expiring K V} {k k' : K} {e : Stamped V}
    (after : s.del k k' = some e) : s k' = some e := by
  rw [del_apply] at after
  split at after
  · cases after
  · exact after

theorem of_set_eq_some {s : Expiring K V} {now : Nat} {k k' : K} {v : V} {life : Option Nat}
    {e : Stamped V} (after : s.set now k v life k' = some e) : k' = k ∨ s k' = some e := by
  rw [set_apply] at after
  split at after
  next same => exact .inl same
  · exact .inr after

@[simp] theorem set_self (s : Expiring K V) (now : Nat) (k : K) (v : V) (life : Option Nat) :
    s.set now k v life k = some ⟨v, life.map fun n => now + 1000 * n⟩ := by simp [set_apply]

@[simp] theorem del_self (s : Expiring K V) (k : K) : s.del k k = none := by simp [del_apply]

theorem set_of_ne {k k' : K} (other : k' ≠ k) (s : Expiring K V) (now : Nat) (v : V)
    (life : Option Nat) : s.set now k v life k' = s k' := by simp [set_apply, other]

theorem del_of_ne {k k' : K} (other : k' ≠ k) (s : Expiring K V) : s.del k k' = s k' := by
  simp [del_apply, other]

@[simp] theorem get_del_self (s : Expiring K V) (now : Nat) (k : K) :
    (s.del k).get now k = none := by
  simp [get]

end Expiring

end Store
