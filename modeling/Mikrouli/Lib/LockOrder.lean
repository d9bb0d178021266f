import Mathlib.Order.WellFounded
import Mikrouli.Lib.Interleaving

/-! Threads that take resources in one order. Whoever waits for a resource waits for its holder,
who can only be waiting for a later one: where no thread keeps a resource for good, some thread
can always go on. -/

namespace Async

variable {S : Signature} {V : Service S} {Resource : Type}

/-- `later r' r`: `r'` may be taken by a thread that holds `r`. -/
theorem exists_ready {c : Config V} (holds : Nat → Resource → Prop)
    (wants : S.Cmd → Resource → Prop) {ready : Nat → S.Cmd → Prop}
    {later : Resource → Resource → Prop} (order : WellFounded later)
    (blocked : ∀ i cmd, c.Awaits i cmd → ready i cmd ∨ ∃ r k, wants cmd r ∧ holds k r)
    (working : ∀ k r, holds k r → ∃ cmd, c.Awaits k cmd)
    (ordered : ∀ k r cmd r', holds k r → c.Awaits k cmd → wants cmd r' → later r' r)
    (running : ¬c.Quiescent) : ∃ i cmd, c.Awaits i cmd ∧ ready i cmd := by
  -- a holder waits for a later resource only, and there is a last one
  have held : ∀ r k, holds k r → ∃ i cmd, c.Awaits i cmd ∧ ready i cmd := by
    intro r
    induction r using order.induction with
    | _ r ih =>
      intro k holder
      obtain ⟨cmd, awaits⟩ := working k r holder
      rcases blocked k cmd awaits with can | ⟨r', k', wanted, holder'⟩
      · exact ⟨k, cmd, awaits, can⟩
      · exact ih r' (ordered k r cmd r' holder awaits wanted) k' holder'
  obtain ⟨i, cmd, awaits⟩ := c.exists_awaits running
  rcases blocked i cmd awaits with can | ⟨r, k, -, holder⟩
  · exact ⟨i, cmd, awaits, can⟩
  · exact held r k holder

/-- Where some thread can always run its next command unless the state is spent, every request can
be answered unless a spent state is reached first. -/
theorem exists_quiescent_or {G : Guard V} {I Spent : Config V → Prop}
    (kept : ∀ c c', I c → Step G c c' → I c')
    (live : ∀ c, I c → ¬Spent c → ¬c.Quiescent → ∃ i cmd ch res w,
      c.Awaits i cmd ∧ V.exec i cmd ch c.shared.world = some (res, w) ∧
        G c.shared (.call i cmd ch))
    {c : Config V} (start : I c) : ∃ c', Reach G c c' ∧ (c'.Quiescent ∨ Spent c') := by
  by_cases spent : ∃ c', Reach G c c' ∧ Spent c'
  · obtain ⟨c', reach, spent⟩ := spent
    exact ⟨c', reach, .inr spent⟩
  · push Not at spent
    obtain ⟨c', reach, quiescent⟩ := exists_quiescent (I := fun c' => I c' ∧ Reach G c c')
      (fun c₁ c₂ holds step => ⟨kept c₁ c₂ holds.1 step, holds.2.tail step⟩)
      (fun c₁ holds running => live c₁ holds.1 (spent c₁ holds.2) running) ⟨start, .refl⟩
    exact ⟨c', reach, .inl quiescent⟩

end Async
