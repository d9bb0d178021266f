import Mikrouli.Model.AuthController
import Mikrouli.Properties.Destinations
import Mikrouli.Properties.Resolution

/-! Which passwords open an account that a registration made. -/

namespace Mikrouli

open Async Store

variable {T : TextChecks} {P : Platform} {i : Nat} {w w' : World}

/-! ### Runs -/

/-- Requests one after the other, with the clock moving; any command may fail. -/
def anyRequests (P : Platform) : Regime (mikrouli P) where
  toSetting := alone P fun _ => True
  idle w w' := ∃ ms, w' = w.advance ms
  next _ _ _ := True

theorem exec_orderly {c : Cmd} {ch : Choice} {res : Except AppError c.Res}
    (orderly : w.Settled ∧ w.Referential) (accounts : c.writesAccounts = false)
    (returned : exec P i c ch w = some (res, w')) : w'.Settled ∧ w'.Referential := by
  have frame := exec_frame returned
  refine ⟨⟨?_, ?_⟩, ?_⟩
  · rw [frame.users accounts]
    exact fun v member => (orderly.1.users v member).imp_right fun old => frame.drawn old
  · rw [frame.providerAccounts accounts]
    exact fun v member => (orderly.1.accounts v member).imp_right fun old => frame.drawn old
  · rw [World.Referential, frame.users accounts, frame.providerAccounts accounts]
    exact orderly.2

theorem orderly_of_only {α : Type} {allowed : Choice → Prop} {p : Prog α}
    (only : p.Only fun c : Cmd => c.writesAccounts = false) (orderly : w.Settled ∧ w.Referential) :
    Always (machine P) (alone P allowed) i (fun _ w' => w'.Settled ∧ w'.Referential) p w := by
  refine Always.of_only only ?_ ?_ orderly
  · rintro w _ ⟨settled, referential⟩ ⟨ms, rfl⟩
    exact ⟨settled.advance ms, referential⟩
  · exact fun c ch w res w' accounts orderly _ returned => exec_orderly orderly accounts returned

/-- Every request leaves the accounts tables committed and referential. -/
theorem serve_orderly {allowed : Choice → Prop} {r : Req} (orderly : w.Settled ∧ w.Referential) :
    Always (machine P) (alone P allowed) i (fun _ w' => w'.Settled ∧ w'.Referential)
      (serve P r) w := by
  have ⟨settled, referential⟩ := orderly
  cases r with
  | register email password =>
    apply Always.map
    exact (alone_register settled).mono fun _ _ registers =>
      registers.reaches settled referential
  | findOrCreateFromProvider identity =>
    apply Always.map
    exact (alone_findOrCreateFromProvider settled referential).mono fun _ _ resolves =>
      resolves.reaches settled referential
  | loginWithGithub identity =>
    apply Always.map
    apply Always.bind
    refine (alone_findOrCreateFromProvider settled referential).mono fun r w₁ resolves => ?_
    have reached := resolves.reaches settled referential
    cases r with
    | error e => exact reached
    | ok user => exact orderly_of_only (only_issueTokens rfl (fun _ _ _ => rfl) fun _ _ _ => rfl) reached
  | _ =>
    exact orderly_of_only ((serve_only P _).mono fun c issued => reads_of_mayIssue rfl issued) orderly

theorem anyRequests_orderly {w₀ : World} {h : List (Served (mikrouli P))}
    (orderly : w₀.Settled ∧ w₀.Referential) (session : Session (anyRequests P) w₀ h w) :
    w.Settled ∧ w.Referential := by
  refine session.invariant (fun _ (w : World) => w.Settled ∧ w.Referential) orderly ?_ ?_
  · rintro _ w _ ⟨settled, referential⟩ ⟨ms, rfl⟩
    exact ⟨settled.advance ms, referential⟩
  · exact fun h w r orderly _ => serve_orderly orderly

theorem anyRequests_user_kept {w₀ : World} {h : List (Served (mikrouli P))}
    (session : Session (anyRequests P) w₀ h w) {user : User}
    (member : ⟨user, none⟩ ∈ w₀.users.rows) : ⟨user, none⟩ ∈ w.users.rows := by
  refine session.invariant (fun _ (w : World) => ⟨user, none⟩ ∈ w.users.rows) member ?_ ?_
  · rintro _ w _ member ⟨ms, rfl⟩
    exact member
  · exact fun h w r member _ => serve_user_kept member

/-! ### Bodies -/

/-- Some body passes the DTO with these values. -/
def Accepted (T : TextChecks) (c : Credentials) : Prop :=
  ∃ request : AuthRequest, request.receive T = .ok c

theorem holds_of_transform {dto : Dto} {body : Json} {object : Instance}
    (passed : ValidationPipe.transform dto body = .ok object) {p : Property} (known : p ∈ dto)
    (required : p.isOptional = false) : ∀ c ∈ p.constraints, c.holds (object.lookup p.name) = true := by
  unfold ValidationPipe.transform at passed
  split at passed
  next valid =>
    cases passed
    -- an optional property may be missing, this one may not
    rcases Property.error?_eq_none.mp ((validate_eq_nil.mp valid).2 p known) with ⟨optional, -⟩ | holds
    · rw [required] at optional
      cases optional
    · exact holds
  · cases passed

/-- A string check is about the text that the handler gets. -/
theorem test_of_holds {object : Instance} {key name message : String} {test : String → Bool}
    (holds : (stringCheck name message test).holds (object.lookup key) = true) :
    test (object.text key) = true := by
  unfold Instance.text
  cases found : object.lookup key with
  | none => simp [found, stringCheck] at holds
  | some value =>
    rw [found] at holds
    simp only [stringCheck] at holds
    split at holds
    next s same =>
      cases same
      exact holds
    · cases holds

theorem isEmail_of_accepted {e p : String} (accepted : Accepted T (.register e p)) :
    T.isEmail e = true := by
  obtain ⟨request, received⟩ := accepted
  cases request with
  | login body =>
    simp only [AuthRequest.receive] at received
    cases passed : ValidationPipe.transform (LoginDto T) body with
    | error exc => simp [passed, bind, Except.bind] at received
    | ok dto => simp [passed, bind, Except.bind, pure, Except.pure] at received
  | register body =>
    simp only [AuthRequest.receive] at received
    cases passed : ValidationPipe.transform (RegisterDto T) body with
    | error exc => simp [passed, bind, Except.bind] at received
    | ok dto =>
      simp only [passed, bind, Except.bind, pure, Except.pure, Except.ok.injEq,
        Credentials.register.injEq] at received
      obtain ⟨rfl, -⟩ := received
      have holds := holds_of_transform passed (p := RegisterDto.email T) List.mem_cons_self rfl
        (IsEmail T "email") (by simp [RegisterDto.email])
      exact test_of_holds holds

theorem accepted_login {e q : String} (email : T.isEmail e = true) (nonempty : q ≠ "") :
    Accepted T (.login e q) := by
  refine ⟨.login (.obj [("email", .str e), ("password", .str q)]), ?_⟩
  have passed : ValidationPipe.transform (LoginDto T)
      (.obj [("email", .str e), ("password", .str q)]) =
      .ok [("email", .plain (.str e)), ("password", .plain (.str q))] := by
    simp [ValidationPipe.transform, ValidationPipe.entity, validate, whitelistErrors, LoginDto,
      LoginDto.email, LoginDto.password, plainToInstance, SKIPPED_KEYS, Property.error?, IsEmail,
      IsString, IsNotEmpty, stringCheck, List.lookup_cons, email, nonempty]
  simp [AuthRequest.receive, passed, bind, Except.bind, pure, Except.pure, Instance.text,
    List.lookup_cons]

/-! ### Exactness -/

/-- Bytes from the 73rd on are not read. -/
theorem bcryptInput_append {password : String} (long : 72 ≤ password.utf8ByteSize)
    (rest : String) : bcryptInput (password ++ rest) = bcryptInput password := by
  have size : 72 ≤ password.toByteArray.data.toList.length := by
    rw [Array.length_toList]
    exact long
  simp only [bcryptInput, toList_bytes, String.toUTF8_eq_toByteArray, String.toByteArray_append]
  rw [ByteArray.data_append, Array.toList_append, List.take_append_of_le_length size]

theorem exists_validation {e q : String} (settled : w.Settled) :
    ∃ r w', Runs (machine P) (alone P fun ch => ch.fault = none) i
      (AuthService.validateCredentials P e q) w r w' := by
  have only : Prog.Only (fun c : Cmd => c.resolves = true)
      (AuthService.validateCredentials P e q) := only_validateCredentials rfl
  exact exists_run_of_resolves settled only

/-- With the database at work, a password opens a registered account exactly if bcrypt reads it
like the one that was registered. -/
theorem validates_iff (bcrypt : Bcrypt P) {user : User} {p q salt : String}
    (settled : w.Settled) (row : ⟨user, none⟩ ∈ w.users.rows)
    (hash : user.passwordHash = some (P.bcryptHash p salt)) {r : Except AppError (Option User)}
    (run : Runs (machine P) (alone P fun ch => ch.fault = none) i
      (AuthService.validateCredentials P user.email q) w r w') :
    (∃ found, r = .ok (some found) ∧ found.id = user.id) ↔ bcryptInput q = bcryptInput p := by
  rw [← opens_hash bcrypt, ← hash]
  constructor
  · rintro ⟨found, rfl, same⟩
    cases (alone_validateCredentials settled).runs run with
    | opened _ there own opened =>
      -- emails are unique, so it is the account of the registration
      have one := Table.eq_of_key (t := w.users) (k := fun v => v.row.email) (by simp) row there
        own.symm
      cases one
      exact opened
  · intro opened
    cases (alone_validateCredentials settled).runs run with
    | opened _ there own =>
      have one := Table.eq_of_key (t := w.users) (k := fun v => v.row.email) (by simp) row there
        own.symm
      cases one
      exact ⟨_, rfl, rfl⟩
    | refused _ closed =>
      have shut := closed _ (World.passwordOf_eq_some.mpr ⟨_, row, rfl, rfl⟩)
      rw [opened] at shut
      cases shut
    | failed fail =>
      obtain ⟨ch, works, fault⟩ := fail
      exact absurd works fault

/-- After a registration that made the account, and any requests since: the login check returns
the account for a password exactly if that is the registered one, except for another password that
agrees with it on the first 72 bytes; and there is no such password exactly if the registered one
is shorter than 72 bytes. -/
theorem password_exact_iff (bcrypt : Bcrypt P) {now j : Nat} {h h' : List (Served (mikrouli P))}
    {w₁ w₂ : World} {e p : String} {user : PublicUser}
    (before : Session (anyRequests P) (World.empty now) h w)
    (accepted : Accepted T (.register e p)) (unused : ∀ v ∈ w.users.rows, v.row.email ≠ e)
    (registered : Runs (machine P) (alone P fun _ => True) i (AuthService.register e p) w
      (.ok user) w₁)
    (later : Session (anyRequests P) w₁ h' w₂) :
    (∀ q, Accepted T (.login e q) → ∀ r w₃,
      Runs (machine P) (alone P fun ch => ch.fault = none) j
        (AuthService.validateCredentials P e q) w₂ r w₃ →
      (((∃ found, r = .ok (some found) ∧ found.id = user.id) ↔ q = p) ↔
        (q = p ∨ bcryptInput q ≠ bcryptInput p))) ∧
    ((∀ q, Accepted T (.login e q) → ∀ r w₃,
      Runs (machine P) (alone P fun ch => ch.fault = none) j
        (AuthService.validateCredentials P e q) w₂ r w₃ →
      ((∃ found, r = .ok (some found) ∧ found.id = user.id) ↔ q = p)) ↔
      p.utf8ByteSize < 72) := by
  obtain ⟨settled, referential⟩ := anyRequests_orderly
    ⟨⟨by simp [World.empty], by simp [World.empty]⟩, by simp [World.Referential, World.empty]⟩ before
  have registers := (alone_register settled).runs registered
  have orderly₂ := anyRequests_orderly (registers.reaches settled referential) later
  have validates : ∀ q r w₃, Runs (machine P) (alone P fun ch => ch.fault = none) j
      (AuthService.validateCredentials P e q) w₂ r w₃ →
      ((∃ found, r = .ok (some found) ∧ found.id = user.id) ↔ bcryptInput q = bcryptInput p) := by
    intro q r w₃ run
    cases registers with
    | @created account _ _ _ own hash _ _ adds =>
      obtain ⟨salt, hash⟩ := hash
      have row : ⟨account, none⟩ ∈ w₁.users.rows := by
        rw [adds.users]
        exact List.mem_cons_self
      subst own
      exact validates_iff bcrypt orderly₂.1 (anyRequests_user_kept later row) hash run
    | decoy _ taken =>
      obtain ⟨v, member, same⟩ := taken
      exact absurd same (unused v member)
  refine ⟨?_, ?_, ?_⟩
  · intro q _ r w₃ run
    rw [validates q r w₃ run]
    -- the password itself always opens; another one exactly if bcrypt reads it the same
    by_cases same : q = p
    · simp [same]
    · simp [same]
  · intro exactly
    by_contra short
    -- a longer password than the registered one opens the account too
    have long : 72 ≤ p.utf8ByteSize := by omega
    have other : p ++ "x" ≠ p := by
      intro equal
      have sizes := congrArg String.utf8ByteSize equal
      simp at sizes
    have nonempty : p ++ "x" ≠ "" := by
      intro equal
      have sizes := congrArg String.utf8ByteSize equal
      simp at sizes
    obtain ⟨r, w₃, run⟩ := exists_validation orderly₂.1
    have opened := (validates (p ++ "x") r w₃ run).mpr (bcryptInput_append long "x")
    have received := accepted_login (isEmail_of_accepted accepted) nonempty
    exact other ((exactly (p ++ "x") received r w₃ run).mp opened)
  · intro short q _ r w₃ run
    rw [validates q r w₃ run]
    constructor
    -- below 72 bytes all of the password is read
    · exact fun same => eq_of_bcryptInput short same.symm
    · rintro rfl
      rfl

theorem register_on_empty (p : String) (test : PublicUser → World → Bool)
    (passed : ((replay (machine Platform.plain) 0 (AuthService.register "u@ab.cd" p)
      [{ draw := "salt" }, { draw := "user" }, {}] (World.empty 5000)).any fun a =>
        a.1.toOption.any fun user => test user a.2) = true) :
    ∃ user w₁, Runs (machine Platform.plain) (alone Platform.plain fun _ => True) 0
      (AuthService.register "u@ab.cd" p) (World.empty 5000) (.ok user) w₁ ∧
      test user w₁ = true := by
  obtain ⟨r, w₁, run, holds⟩ :=
    exists_runs_of_replay alone_still _ (fun _ _ _ _ => trivial) _ passed
  cases r with
  | error e => cases holds
  | ok user => exact ⟨user, w₁, run, holds⟩

def registration (password : String) : AuthRequest :=
  .register (.obj [("email", .str "u@ab.cd"), ("password", .str password)])

theorem password_exact_iff_short :
    ∃ user w₁, Runs (machine Platform.plain) (alone Platform.plain fun _ => True) 0
      (AuthService.register "u@ab.cd" "Secret123") (World.empty 5000) (.ok user) w₁ ∧
      ∀ q, Accepted TextChecks.plain (.login "u@ab.cd" q) → ∀ r w₃,
        Runs (machine Platform.plain) (alone Platform.plain fun ch => ch.fault = none) 1
          (AuthService.validateCredentials Platform.plain "u@ab.cd" q) w₁ r w₃ →
        ((∃ found, r = .ok (some found) ∧ found.id = user.id) ↔ q = "Secret123") := by
  obtain ⟨user, w₁, registered, -⟩ := register_on_empty "Secret123" (fun _ _ => true)
    (by decide +kernel)
  have accepted : Accepted TextChecks.plain (.register "u@ab.cd" "Secret123") :=
    ⟨registration "Secret123", rfl⟩
  have exactly := password_exact_iff Platform.plain_bcrypt (j := 1) .nil accepted
    (by simp [World.empty]) registered .nil
  exact ⟨user, w₁, registered, exactly.2.mpr (by decide)⟩

/-- 72 bytes, as many as bcrypt reads. -/
def longPassword : String := "Secret123" ++ String.ofList (List.replicate 63 'x')

/-- The account of a long password opens to any longer one. -/
theorem longer_password_opens :
    ¬∀ (now i j : Nat) (h h' : List (Served (mikrouli Platform.plain))) (w w₁ w₂ : World)
      (e p : String) (user : PublicUser),
      Session (anyRequests Platform.plain) (World.empty now) h w →
      Accepted TextChecks.plain (.register e p) → (∀ v ∈ w.users.rows, v.row.email ≠ e) →
      Runs (machine Platform.plain) (alone Platform.plain fun _ => True) i
        (AuthService.register e p) w (.ok user) w₁ →
      Session (anyRequests Platform.plain) w₁ h' w₂ →
      ∀ q, Accepted TextChecks.plain (.login e q) → ∀ r w₃,
        Runs (machine Platform.plain) (alone Platform.plain fun ch => ch.fault = none) j
          (AuthService.validateCredentials Platform.plain e q) w₂ r w₃ →
        ((∃ found, r = .ok (some found) ∧ found.id = user.id) ↔ q = p) := by
  intro exactly
  obtain ⟨user, w₁, registered, opened⟩ := register_on_empty longPassword
    (fun (user : PublicUser) w₁ => (replay (machine Platform.plain) 1
      (AuthService.validateCredentials Platform.plain "u@ab.cd" (longPassword ++ "y")) [{}] w₁).any
        fun a => a.1.toOption.join.any fun found => decide (found.id = user.id)) (by decide +kernel)
  have works : ∀ ch ∈ ([{}] : List Choice), ∀ (c : Cmd) (w : World),
      (alone Platform.plain fun ch => ch.fault = none).allow c ch w := by
    intro ch member c w
    rw [List.mem_singleton] at member
    exact member ▸ rfl
  obtain ⟨r, w₃, run, holds⟩ := exists_runs_of_replay alone_still _ works _ opened
  have accepted : Accepted TextChecks.plain (.register "u@ab.cd" longPassword) :=
    ⟨registration longPassword, by decide +kernel⟩
  have received : Accepted TextChecks.plain (.login "u@ab.cd" (longPassword ++ "y")) :=
    accepted_login (by decide) (by decide)
  have returned : ∃ found, r = .ok (some found) ∧ found.id = user.id := by
    obtain ⟨found, shape, own⟩ := (Option.any_eq_true _ _).mp holds
    refine ⟨found, ?_, of_decide_eq_true own⟩
    cases r with
    | error e => cases shape
    | ok o => exact congrArg Except.ok (Option.join_eq_some_iff.mp shape |> Option.some.inj)
  have same := (exactly 5000 0 1 [] [] _ _ _ _ _ user .nil accepted (by simp [World.empty]) registered
    .nil _ received r w₃ run).mp returned
  exact absurd same (by decide)

end Mikrouli
