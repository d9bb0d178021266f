import Mikrouli.Lib.Prog

/-! A machine that keeps a record of the commands it answered. Programs do not see the record, so
what is proved of their runs with it holds of their runs. -/

namespace Async

variable {S : Signature} {α β : Type}

/-- A command and its outcome. -/
structure Call (S : Signature) where
  cmd : S.Cmd
  res : Except S.Err (S.Res cmd)

/-- The machine with a record of its calls beside the world, newest first. -/
abbrev Machine.recorded (M : Machine S) : Machine S where
  World := M.World × List (Call S)
  Choice := M.Choice
  exec i c ch w := (M.exec i c ch w.1).map fun (res, w') => (res, w', ⟨c, res⟩ :: w.2)

variable {M : Machine S}

abbrev Setting.recorded (K : Setting M) : Setting M.recorded where
  allow c ch w := K.allow c ch w.1
  drift w w' := K.drift w.1 w'.1 ∧ w'.2 = w.2

variable {K : Setting M} {i : Nat}

/-- A command is answered where the world has drifted to, and recorded. -/
theorem Always.recorded_perform {c : S.Cmd}
    {Q : Except S.Err (S.Res c) → M.World × List (Call S) → Prop} {w : M.World}
    {log : List (Call S)}
    (always : ∀ w₀, K.drift w w₀ → ∀ ch res w', K.allow c ch w₀ →
      M.exec i c ch w₀ = some (res, w') → Q res (w', ⟨c, res⟩ :: log)) :
    Always M.recorded K.recorded i Q (Prog.perform c) (w, log) := by
  apply Always.perform
  rintro ⟨w₀, _⟩ ⟨drifted, rfl⟩ ch res ⟨w', log'⟩ allowed returned
  obtain ⟨⟨res', w₁⟩, performed, same⟩ := Option.map_eq_some_iff.mp returned
  cases same
  exact always w₀ drifted ch res w' allowed performed

/-- Every run can be recorded. -/
theorem Runs.recorded {p : Prog S α} {w w' : M.World} {r : Except S.Err α}
    (run : Runs M K i p w r w') (log : List (Call S)) :
    ∃ log', Runs M.recorded K.recorded i p (w, log) r (w', log') := by
  induction run generalizing log with
  | done a w => exact ⟨log, Runs.done (M := M.recorded) a (w, log)⟩
  | fail e w => exact ⟨log, Runs.fail (M := M.recorded) e (w, log)⟩
  | @await c k ch w w₀ res w₁ w₂ r drifted allowed returned _ ih =>
    obtain ⟨log', rest⟩ := ih (⟨c, res⟩ :: log)
    have performed : M.recorded.exec i c ch (w₀, log) = some (res, w₁, ⟨c, res⟩ :: log) :=
      Option.map_eq_some_iff.mpr ⟨_, returned, rfl⟩
    exact ⟨log', Runs.await (show K.recorded.drift (w, log) (w₀, log) from ⟨drifted, rfl⟩) allowed
      performed rest⟩

/-- What is true of every call there can be is true of the calls on the record. -/
theorem Always.recorded_calls {good : Call S → Prop} {p : Prog S α}
    (step : ∀ c ch w res w', M.exec i c ch w = some (res, w') → good ⟨c, res⟩) {w : M.World}
    {log : List (Call S)} (before : ∀ call ∈ log, good call) :
    Always M.recorded K.recorded i (fun _ w' => ∀ call ∈ w'.2, good call) p (w, log) := by
  induction p generalizing w log with
  | done a => exact before
  | fail e => exact before
  | await c k ih =>
    rintro ⟨w₀, _⟩ ⟨_, rfl⟩ ch res ⟨w', log'⟩ _ returned
    obtain ⟨⟨res', w₁⟩, performed, same⟩ := Option.map_eq_some_iff.mp returned
    cases same
    refine ih res fun call member => ?_
    rcases List.mem_cons.mp member with rfl | old
    · exact step c ch w₀ res w' performed
    · exact before call old

/-- The call failed, and such a failure is looked for. -/
def Call.Failed (on : S.Cmd → S.Err → Prop) (call : Call S) : Prop :=
  ∃ e, call.res = .error e ∧ on call.cmd e

/-- A program that such a failure ends has thrown if there is one on the record. -/
theorem Always.recorded_failsOn {on : S.Cmd → S.Err → Prop} {bad : S.Err → Prop} {p : Prog S α}
    (fails : p.FailsOn on bad) {w : M.World} {log : List (Call S)}
    (clean : ∀ call ∈ log, ¬call.Failed on) :
    Always M.recorded K.recorded i
      (fun r w' => (∃ call ∈ w'.2, call.Failed on) → ∃ e, bad e ∧ r = .error e) p (w, log) := by
  induction p generalizing w log with
  | done a => exact fun ⟨call, member, failed⟩ => absurd failed (clean call member)
  | fail e => exact fun ⟨call, member, failed⟩ => absurd failed (clean call member)
  | await c k ih =>
    rintro ⟨w₀, _⟩ ⟨_, rfl⟩ ch res ⟨w', log'⟩ _ returned
    obtain ⟨⟨res', w₁⟩, performed, same⟩ := Option.map_eq_some_iff.mp returned
    cases same
    by_cases failed : (⟨c, res⟩ : Call S).Failed on
    · obtain ⟨e, raised, looked⟩ := failed
      have same : res = .error e := raised
      obtain ⟨e', thrown, ends⟩ := fails.1 e looked
      rw [same, ends]
      exact fun _ => ⟨e', thrown, rfl⟩
    · refine ih res (fails.2 res) fun call member => ?_
      rcases List.mem_cons.mp member with rfl | old
      · exact failed
      · exact clean call old

/-- A run may take a command's answer, and go on with it on the record. -/
theorem May.recorded_await {c : S.Cmd} {k : Except S.Err (S.Res c) → Prog S α} {ch : M.Choice}
    {w w₀ w₁ : M.World} {log : List (Call S)} {res : Except S.Err (S.Res c)}
    {Q : Except S.Err α → M.World × List (Call S) → Prop} (drifted : K.drift w w₀)
    (allowed : K.allow c ch w₀) (returned : M.exec i c ch w₀ = some (res, w₁))
    (rest : May M.recorded K.recorded i Q (k res) (w₁, ⟨c, res⟩ :: log)) :
    May M.recorded K.recorded i Q (.await c k) (w, log) :=
  .await (show K.recorded.drift (w, log) (w₀, log) from ⟨drifted, rfl⟩) allowed
    (Option.map_eq_some_iff.mpr ⟨_, returned, rfl⟩) rest

end Async
