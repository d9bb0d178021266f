import Mikrouli.Lib.Prog

/-! A machine with one more store beside its world: programs of the machine run unchanged, and
leave the store alone. -/

namespace Async

variable {S : Signature} {C : Type} {R : C → Type} {α β : Type}

/-- The commands of `S` and those of one more store. -/
abbrev Signature.extend (S : Signature) (C : Type) (R : C → Type) : Signature where
  Cmd := S.Cmd ⊕ C
  Res
    | .inl c => S.Res c
    | .inr c => R c
  Err := S.Err

def Prog.lift : Prog S α → Prog (S.extend C R) α
  | .done a => .done a
  | .fail e => .fail e
  | .await c k => .await (.inl c) fun r => (k r).lift

theorem Prog.Only.lift {ok : (S.extend C R).Cmd → Prop} {p : Prog S α}
    (only : p.Only fun c => ok (.inl c)) : (p.lift : Prog (S.extend C R) α).Only ok := by
  induction p with
  | done a => trivial
  | fail e => trivial
  | await c k ih => exact ⟨only.1, fun r => ih r (only.2 r)⟩

theorem Prog.lift_bind (p : Prog S α) (f : α → Prog S β) :
    ((p >>= f).lift : Prog (S.extend C R) β) = p.lift >>= fun a => (f a).lift := by
  induction p with
  | done a => rfl
  | fail e => rfl
  | await c k ih => exact congrArg (Prog.await _) (funext ih)

theorem Prog.lift_tryCatch (p : Prog S α) (h : S.Err → Prog S α) :
    ((p.tryCatch h).lift : Prog (S.extend C R) α) = p.lift.tryCatch fun e => (h e).lift := by
  induction p with
  | done a => rfl
  | fail e => rfl
  | await c k ih => exact congrArg (Prog.await _) (funext ih)

theorem Prog.lift_perform (c : S.Cmd) :
    ((Prog.perform c).lift : Prog (S.extend C R) (S.Res c)) =
      Prog.perform (S := S.extend C R) (.inl c) := by
  refine congrArg (Prog.await _) (funext fun r => ?_)
  cases r <;> rfl

/-- The machine's world stands still while the store works, and the other way round. -/
def Machine.extend (M : Machine S) {Store : Type}
    (query : (c : C) → M.Choice → M.World → Store → Option (Except S.Err (R c) × Store)) :
    Machine (S.extend C R) where
  World := M.World × Store
  Choice := M.Choice
  exec i
    | .inl c, ch, w => (M.exec i c ch w.1).map fun (res, w') => (res, w', w.2)
    | .inr c, ch, w => (query c ch w.1 w.2).map fun (res, store) => (res, w.1, store)

variable {M : Machine S} {Store : Type}
  {query : (c : C) → M.Choice → M.World → Store → Option (Except S.Err (R c) × Store)}

def Setting.extend (K : Setting M)
    (query : (c : C) → M.Choice → M.World → Store → Option (Except S.Err (R c) × Store))
    (allowed : C → M.Choice → Prop) : Setting (M.extend query) where
  allow
    | .inl c, ch, w => K.allow c ch w.1
    | .inr c, ch, _ => allowed c ch
  drift w w' := K.drift w.1 w'.1 ∧ w'.2 = w.2

variable {K : Setting M} {allowed : C → M.Choice → Prop} {i : Nat}

/-- What holds of a program on its machine holds of it beside the store. -/
theorem Always.lift {Q : Except S.Err α → M.World × Store → Prop} {p : Prog S α} {w : M.World}
    {store : Store} (always : Always M K i (fun r w' => Q r (w', store)) p w) :
    Always (M.extend query) (K.extend query allowed) i Q p.lift (w, store) := by
  induction p generalizing w with
  | done a => exact always
  | fail e => exact always
  | await c k ih =>
    rintro ⟨w₀, _⟩ ⟨drifted, rfl⟩ ch res ⟨w', store'⟩ may returned
    obtain ⟨⟨res', w₁⟩, performed, same⟩ := Option.map_eq_some_iff.mp returned
    cases same
    exact ih res (always w₀ drifted ch res w' may performed)

/-- A command of the store finds the world where its own moves have taken it. -/
theorem Always.ask {c : C} {Q : Except S.Err (R c) → M.World × Store → Prop}
    {w : M.World × Store}
    (always : ∀ w₀, K.drift w.1 w₀ → ∀ ch res store, allowed c ch →
      query c ch w₀ w.2 = some (res, store) → Q res (w₀, store)) :
    Always (M.extend query) (K.extend query allowed) i Q
      (Prog.perform (S := S.extend C R) (.inr c)) w := by
  apply Always.perform
  rintro ⟨w₀, _⟩ ⟨drifted, rfl⟩ ch res ⟨w', store⟩ may returned
  obtain ⟨⟨res', store'⟩, performed, same⟩ := Option.map_eq_some_iff.mp returned
  cases same
  exact always w₀ drifted ch res store may performed

end Async
