import Mikrouli.Model.AuthController
import Mikrouli.Properties.Alone

/-! Two runs of registrations and logins about one email, of which one starts without and the
other with an account: what a client without its password can tell them apart by. -/

namespace Mikrouli

open Async Store

/-! ### What a client sees -/

inductive BodyView where
  | user (id email : String)
  | problem (details : ProblemDetails)
  deriving DecidableEq

/-- A response without its tokens and timestamps. -/
structure View where
  status : Nat
  body : BodyView
  cookies : List (String × String × Nat)
  deriving DecidableEq

/-- The view with the ids renamed. -/
def Response.view (ρ : String → String) (res : Response) : View where
  status := res.status
  body := match res.body with
    | .user profile => .user (ρ profile.id) profile.email
    | .problem details => .problem details
  cookies := res.cookies.map fun cookie => (cookie.name, cookie.path, cookie.maxAge)

def Response.ids (res : Response) : List String :=
  match res.body with
  | .user profile => [profile.id]
  | .problem _ => []

/-- The view with the ids left out. -/
abbrev Response.blank (res : Response) : View := res.view fun _ => ""

/-- Different ids get different names. -/
def Renames (ρ : String → String) (ids : List String) : Prop :=
  ∀ x ∈ ids, ∀ y ∈ ids, ρ x = ρ y → x = y

/-- The responses agree once ids, tokens and timestamps are renamed. -/
def Alike (first second : List Response) : Prop :=
  ∃ ρ : String → String, Renames ρ (first.flatMap Response.ids) ∧
    first.map (Response.view ρ) = second.map (Response.view id)

theorem Alike.statuses {first second : List Response} (alike : Alike first second) :
    first.map Response.status = second.map Response.status := by
  obtain ⟨ρ, -, same⟩ := alike
  simpa [List.map_map, Function.comp_def, Response.view] using congrArg (List.map View.status) same

/-! ### Conversations -/

/-- A request, and whether the stores are up while it is answered. -/
structure Ask where
  request : AuthRequest
  up : Bool

def storesUp (up : Bool) (ch : Choice) : Prop := ch.fault = none ↔ up = true

/-- A party that chooses its next request by the views of the responses so far. -/
abbrev Party := List View → Ask

variable (T : TextChecks) (isProd : Bool) (P : Platform)

/-- The party's requests are answered one after the other. -/
inductive Conversation : Party → World → List (Ask × Response) → World → Prop
  | nil (party : Party) (w : World) : Conversation party w [] w
  | cons {party : Party} {w w₁ w₂ : World} {i : Nat} {res : Response}
      {log : List (Ask × Response)}
      (run : Runs (machine P) (alone P (storesUp (party []).up)) i
        ((party []).request.respond T isProd P) w (.ok res) w₁)
      (rest : Conversation (fun seen => party (res.blank :: seen)) w₁ log w₂) :
      Conversation party w ((party [], res) :: log) w₂

/-- Whatever the party asks, it asks about the email. -/
def Party.About (email : String) (party : Party) : Prop :=
  ∀ seen c, (party seen).request.receive T = .ok c → c.email = email

/-- The party presents no password that opens an account which stores `hash`. -/
def Party.Ignorant (email : String) (hash : Option String) (party : Party) : Prop :=
  ∀ seen password, (party seen).request.receive T = .ok (.login email password) →
    opens P password hash = false

/-- Some login presents the password under which a request before it registered the email; `own`
is that password where the email is registered already. -/
def TriesOwn : Option String → List Ask → Prop
  | _, [] => False
  | own, ask :: asks =>
    match ask.request.receive T with
    | .error _ => TriesOwn own asks
    -- only the first registration counts, those after it are decoys
    | .ok (.register _ password) => TriesOwn (if ask.up then own.or (some password) else own) asks
    | .ok (.login _ password) =>
      (ask.up = true ∧ ∃ stored ∈ own, bcryptInput password = bcryptInput stored) ∨
        TriesOwn own asks

variable {T isProd P} {w w' : World} {c : Credentials} {up : Bool} {res res' : Response}
  {i : Nat} {email : String}

theorem not_mayFail_of_up : ¬MayFail (storesUp true) := by
  rintro ⟨ch, may, fault⟩
  exact fault (may.mpr rfl)

theorem not_mayWork_of_down : ¬MayWork (storesUp false) := by
  rintro ⟨ch, may, works⟩
  exact absurd (may.mp works) (by simp)

/-! ### One exchange -/

/-- What becomes of a request whose body was accepted. -/
inductive Answers (isProd : Bool) (P : Platform) (w : World) :
    Credentials → Bool → Response → World → Prop
  | down {c : Credentials} {w' : World} (adds : World.Adds none [] [] w w') :
      Answers isProd P w c false (problemResponse isProd .queryFailed) w'
  | created {user : User} {password salt : String} {w' : World}
      (unused : ∀ v ∈ w.users.rows, v.row.email ≠ user.email)
      (hash : user.passwordHash = some (P.bcryptHash password salt))
      (fresh : user.id ∉ w.drawn) (drawn : user.id ∈ w'.drawn)
      (adds : World.Adds none [user] [] w w') :
      Answers isProd P w (.register user.email password) true
        ⟨201, .user ⟨user.id, user.email, user.createdAt⟩, []⟩ w'
  | decoy {email password id : String} {now : Nat} {w' : World}
      (taken : ∃ v ∈ w.users.rows, v.row.email = email)
      (fresh : id ∉ w.drawn) (drawn : id ∈ w'.drawn) (adds : World.Adds none [] [] w w') :
      Answers isProd P w (.register email password) true ⟨201, .user ⟨id, email, now⟩, []⟩ w'
  | opened {user : User} {password : String} {cookies : List SetCookie} {w' : World}
      (row : ⟨user, none⟩ ∈ w.users.rows) (match_ : opens P password user.passwordHash = true)
      (same : w.SameAccounts w') :
      Answers isProd P w (.login user.email password) true
        ⟨200, .user ⟨user.id, user.email, user.createdAt⟩, cookies⟩ w'
  | refused {email password : String} {w' : World}
      (closed : ∀ hash, w.passwordOf email = some hash → opens P password hash = false)
      (adds : World.Adds none [] [] w w') :
      Answers isProd P w (.login email password) true
        (problemResponse isProd (.http (.new .plain 401))) w'

/-- The handler's response, or the filter's. -/
def outcome (T : TextChecks) (isProd : Bool) : Except AppError Response → Response
  | .ok res => res
  | .error err => problemResponse isProd (err.exception T)

@[simp] theorem exception_queryFailed : AppError.exception T .queryFailed = .queryFailed := by
  simp [AppError.exception, AppError.http?]

@[simp] theorem exception_unauthorized :
    AppError.exception T .unauthorized = .http (.new .plain 401) := by
  simp [AppError.exception, AppError.http?]

theorem handleRegister_answers {email password : String} (settled : w.Settled) :
    Always (machine P) (alone P (storesUp up)) i
      (fun r w' => Answers isProd P w (.register email password) up (outcome T isProd r) w')
      (AuthController.handleRegister email password) w := by
  apply Always.bind
  refine (alone_register settled).mono fun r w' registers => ?_
  cases registers with
  | created work unused own hash fresh drawn adds =>
    obtain ⟨salt, hash⟩ := hash
    subst own
    cases up with
    | false => exact absurd work not_mayWork_of_down
    | true => exact .created unused hash fresh drawn adds
  | decoy work taken fresh drawn adds =>
    cases up with
    | false => exact absurd work not_mayWork_of_down
    | true => exact .decoy taken fresh drawn adds
  | failed fail adds =>
    cases up with
    | false =>
      simp only [outcome, exception_queryFailed]
      exact .down adds
    | true => exact absurd fail not_mayFail_of_up

theorem handleLogin_answers {email password : String} (settled : w.Settled) :
    Always (machine P) (alone P (storesUp up)) i
      (fun r w' => Answers isProd P w (.login email password) up (outcome T isProd r) w')
      (AuthController.handleLogin P email password) w := by
  apply Always.bind
  refine (alone_validateCredentials settled).mono fun r w₁ validates => ?_
  cases validates with
  | opened work row own match_ adds =>
    cases up with
    | false => exact absurd work not_mayWork_of_down
    | true =>
      subst own
      apply Always.bind
      refine alone_issueTokens.mono fun r w₂ issues => ?_
      cases issues with
      | issued work same => exact .opened row match_ (adds.sameAccounts same)
      | failed fail => exact absurd fail not_mayFail_of_up
  | refused work closed adds =>
    cases up with
    | false => exact absurd work not_mayWork_of_down
    | true =>
      have answer : Answers isProd P w (.login email password) true
          (outcome T isProd (.error .unauthorized)) w₁ := by
        rw [outcome, exception_unauthorized]
        exact .refused closed adds
      exact answer
  | failed fail adds =>
    cases up with
    | false =>
      simp only [outcome, exception_queryFailed]
      exact .down adds
    | true => exact absurd fail not_mayFail_of_up

theorem respond_rejected {request : AuthRequest} {exc : HttpException}
    {K : Setting (machine P)} (rejected : request.receive T = .error exc) :
    Always (machine P) K i
      (fun r w' => ∀ res, r = .ok res → res = problemResponse isProd (.http exc) ∧ w' = w)
      (request.respond T isProd P) w := by
  rw [AuthRequest.respond, rejected]
  rintro res ⟨⟩
  exact ⟨rfl, rfl⟩

theorem respond_accepted {request : AuthRequest} (settled : w.Settled)
    (accepted : request.receive T = .ok c) :
    Always (machine P) (alone P (storesUp up)) i
      (fun r w' => ∀ res, r = .ok res → Answers isProd P w c up res w')
      (request.respond T isProd P) w := by
  have handled : Always (machine P) (alone P (storesUp up)) i
      (fun r w' => Answers isProd P w c up (outcome T isProd r) w') (c.handle P) w := by
    cases c with
    | register email password => exact handleRegister_answers settled
    | login email password => exact handleLogin_answers settled
  rw [AuthRequest.respond, accepted]
  apply Always.tryCatch
  refine handled.mono fun r w' answers => ?_
  cases r with
  | ok res =>
    rintro _ ⟨⟩
    exact answers
  | error err =>
    rintro _ ⟨⟩
    exact answers

theorem Answers.settled (answers : Answers isProd P w c up res w') (settled : w.Settled) :
    w'.Settled := by
  cases answers with
  | down adds | decoy _ _ _ adds | refused _ adds => exact settled.adds adds (by simp) (by simp)
  | created _ _ _ drawn adds => exact settled.adds adds (by simpa using drawn) (by simp)
  | opened _ _ same =>
    constructor
    · rw [same.users]
      exact fun v member => (settled.users v member).imp_right fun old => same.drawn old
    · rw [same.accounts]
      exact fun v member => (settled.accounts v member).imp_right fun old => same.drawn old

theorem Answers.drawn (answers : Answers isProd P w c up res w') : w.drawn ⊆ w'.drawn := by
  cases answers with
  | down adds | decoy _ _ _ adds | refused _ adds | created _ _ _ _ adds => exact adds.drawn
  | opened _ _ same => exact same.drawn

theorem passwordOf_of_users (same : w'.users.rows = w.users.rows) :
    w'.passwordOf email = w.passwordOf email := by
  rw [World.passwordOf, World.passwordOf, Table.eq_of_rows same]

/-- An account keeps its password, whatever is asked. -/
theorem Answers.kept (answers : Answers isProd P w c up res w') {hash : Option String}
    (stored : w.passwordOf email = some hash) : w'.passwordOf email = some hash := by
  cases answers with
  | down adds | decoy _ _ _ adds | refused _ adds =>
    exact (passwordOf_of_users adds.users).trans stored
  | opened _ _ same =>
    exact (passwordOf_of_users (by rw [same.users])).trans stored
  | created _ _ _ _ adds =>
    obtain ⟨v, member, own, same⟩ := World.passwordOf_eq_some.mp stored
    have later : v ∈ w'.users.rows := by
      rw [adds.users]
      exact List.mem_append_right _ member
    exact World.passwordOf_eq_some.mpr ⟨v, later, own, same⟩

/-- The password under which the email is registered after a request. -/
def Credentials.claims (c : Credentials) (up : Bool) (own : Option String) : Option String :=
  match c with
  | .register _ password => if up then own.or (some password) else own
  | .login _ _ => own

/-- The email has no account yet, or one that was registered with the password. -/
def Registered (P : Platform) (w : World) (email : String) : Option String → Prop
  | none => w.passwordOf email = none
  | some password => ∃ salt, w.passwordOf email = some (some (P.bcryptHash password salt))

theorem Answers.registered (answers : Answers isProd P w c up res w') (about : c.email = email)
    {own : Option String} (registered : Registered P w email own) :
    Registered P w' email (c.claims up own) := by
  cases own with
  | some password =>
    obtain ⟨salt, stored⟩ := registered
    have kept := answers.kept stored
    cases c <;> simp only [Credentials.claims, Option.some_or, ite_self] <;> exact ⟨salt, kept⟩
  | none =>
    have same : w'.users.rows = w.users.rows → Registered P w' email none :=
      fun same => (passwordOf_of_users same).trans registered
    have unused := World.passwordOf_eq_none.mp registered
    cases answers with
    | down adds =>
      cases c <;> exact same adds.users
    | refused _ adds => exact same adds.users
    | opened _ _ kept => exact same (by rw [kept.users])
    | decoy taken =>
      obtain ⟨v, member, own⟩ := taken
      exact absurd (own.trans about) (unused v member)
    | @created user password salt _ _ hash _ _ adds =>
      have row : ⟨user, none⟩ ∈ w'.users.rows := by
        rw [adds.users]
        exact List.mem_append_left _ (by simp)
      exact ⟨salt, World.passwordOf_eq_some.mpr ⟨_, row, about, hash⟩⟩

/-- The request opens no account. -/
def Closed (P : Platform) (w : World) (c : Credentials) (up : Bool) : Prop :=
  ∀ email password, c = .login email password → up = true →
    ∀ hash, w.passwordOf email = some hash → opens P password hash = false

/-- What a request that opens no account shows, whether there is one or not. -/
def expected (isProd : Bool) : Credentials → Bool → View
  | _, false => (problemResponse isProd .queryFailed).blank
  | .register email _, true => ⟨201, .user "" email, []⟩
  | .login _ _, true => (problemResponse isProd (.http (.new .plain 401))).blank

/-- The ids in the responses are new and all different. -/
structure NewIds (w : World) (responses : List Response) : Prop where
  nodup : (responses.flatMap Response.ids).Nodup
  fresh : ∀ id ∈ responses.flatMap Response.ids, id ∉ w.drawn

theorem NewIds.nil (w : World) : NewIds w [] := ⟨by simp, by simp⟩

theorem NewIds.cons {responses : List Response} (first : ∀ id ∈ res.ids, id ∉ w.drawn)
    (drew : ∀ id ∈ res.ids, id ∈ w'.drawn) (once : res.ids.Nodup) (drawn : w.drawn ⊆ w'.drawn)
    (rest : NewIds w' responses) : NewIds w (res :: responses) := by
  constructor
  · rw [List.flatMap_cons]
    refine List.nodup_append.mpr ⟨once, rest.nodup, fun id new later member same => ?_⟩
    exact rest.fresh later member (same ▸ drew id new)
  · intro id member
    rw [List.flatMap_cons, List.mem_append] at member
    rcases member with new | later
    · exact first id new
    · exact fun old => rest.fresh id later (drawn old)

theorem ids_problemResponse (exception : Exception) :
    (problemResponse isProd exception).ids = [] := rfl

theorem Answers.closed (answers : Answers isProd P w c up res w') (closed : Closed P w c up) :
    res.blank = expected isProd c up ∧
      ∀ responses, NewIds w' responses → NewIds w (res :: responses) := by
  have drawn := answers.drawn
  have silent : ∀ {exception responses}, NewIds w' responses →
      NewIds w (problemResponse isProd exception :: responses) := by
    intro exception responses rest
    exact .cons (by simp [ids_problemResponse]) (by simp [ids_problemResponse])
      (by simp [ids_problemResponse]) drawn rest
  cases answers with
  | down adds => exact ⟨by cases c <;> rfl, fun _ => silent⟩
  | refused => exact ⟨rfl, fun _ => silent⟩
  | created _ _ fresh new =>
    exact ⟨rfl, fun _ rest => .cons (by simpa [Response.ids] using fresh)
      (by simpa [Response.ids] using new) (by simp [Response.ids]) drawn rest⟩
  | decoy _ fresh new =>
    exact ⟨rfl, fun _ rest => .cons (by simpa [Response.ids] using fresh)
      (by simpa [Response.ids] using new) (by simp [Response.ids]) drawn rest⟩
  | opened row match_ same =>
    have stored := World.passwordOf_eq_some.mpr ⟨_, row, rfl, rfl⟩
    -- the account opens although the request opens none
    have shut := closed _ _ rfl rfl _ stored
    rw [match_] at shut
    cases shut

theorem Answers.status_of_opens {password : String} {hash : Option String}
    (answers : Answers isProd P w (.login email password) true res w')
    (stored : w.passwordOf email = some hash) (match_ : opens P password hash = true) :
    res.status = 200 := by
  cases answers with
  | opened => rfl
  | refused closed =>
    rw [closed hash stored] at match_
    cases match_

/-! ### Two conversations -/

section Pair

variable {party : Party} {hash own : Option String} {ask : Ask} {asks : List Ask}

theorem Party.About.later (about : party.About T email) (view : View) :
    Party.About T email fun seen => party (view :: seen) := fun seen => about (view :: seen)

theorem Party.Ignorant.later {stored : Option String} (ignorant : party.Ignorant T P email stored)
    (view : View) : Party.Ignorant T P email stored fun seen => party (view :: seen) :=
  fun seen => ignorant (view :: seen)

/-- What a request does to the question whether a later one tries its password. -/
theorem triesOwn_cons (accepted : ask.request.receive T = .ok c) :
    TriesOwn T own (ask :: asks) ↔
      (∃ password, c = .login c.email password ∧ ask.up = true ∧
        ∃ stored ∈ own, bcryptInput password = bcryptInput stored) ∨
      TriesOwn T (c.claims ask.up own) asks := by
  cases c with
  | register email password => simp [TriesOwn, accepted, Credentials.claims]
  | login email password => simp [TriesOwn, accepted, Credentials.claims, Credentials.email]

/-- The same request in the run without and in the run with the account. -/
theorem answers_pair (bcrypt : Bcrypt P) {w₁ w₁' : World} {stored : Option String}
    (registered : Registered P w email own) (taken : w'.passwordOf email = some stored)
    (about : c.email = email)
    (ignorant : ∀ password, c = .login email password → opens P password stored = false)
    (first : Answers isProd P w c up res w₁) (second : Answers isProd P w' c up res' w₁') :
    (res'.blank = expected isProd c up ∧
      ∀ responses, NewIds w₁' responses → NewIds w' (res' :: responses)) ∧
    ((∃ password, c = .login c.email password ∧ up = true ∧
        ∃ known ∈ own, bcryptInput password = bcryptInput known) → res.status = 200) ∧
    ((¬∃ password, c = .login c.email password ∧ up = true ∧
        ∃ known ∈ own, bcryptInput password = bcryptInput known) →
      res.blank = expected isProd c up ∧
        ∀ responses, NewIds w₁ responses → NewIds w (res :: responses)) := by
  refine ⟨second.closed ?_, ?_, ?_⟩
  · rintro email' password rfl - hash found
    obtain rfl : email' = email := about
    have same := Option.some.inj (found.symm.trans taken)
    rw [same]
    exact ignorant password rfl
  · rintro ⟨password, login, rfl, known, member, reads⟩
    rw [about] at login
    subst login
    rw [Option.mem_def] at member
    subst member
    obtain ⟨salt, found⟩ := registered
    -- the registration before it made the account, so the password opens it
    exact first.status_of_opens found ((opens_hash bcrypt).mpr reads)
  · intro none_
    apply first.closed
    rintro email' password rfl rfl hash found
    obtain rfl : email' = email := about
    cases own with
    | none =>
      have missing : w.passwordOf email' = none := registered
      rw [missing] at found
      cases found
    | some known =>
      obtain ⟨salt, stored⟩ := registered
      have same := Option.some.inj (found.symm.trans stored)
      subst same
      rw [Bool.eq_false_iff]
      intro opened
      -- an account of the party's own opens to the password that made it alone
      exact none_ ⟨password, rfl, rfl, known, rfl, (opens_hash bcrypt).mp opened⟩

theorem TriesOwn.of_rejected {exc : HttpException} (rejected : ask.request.receive T = .error exc) :
    TriesOwn T own (ask :: asks) ↔ TriesOwn T own asks := by
  simp [TriesOwn, rejected]

/-- The responses of a conversation. -/
abbrev responses (log : List (Ask × Response)) : List Response := log.map Prod.snd

/-- As long as no login tries the party's own password the two conversations look the same, with
new ids in both; the first such login is answered differently. -/
theorem conversations_pair (bcrypt : Bcrypt P) {log log' : List (Ask × Response)} {w₂ w₂' : World}
    {stored : Option String}
    (first : Conversation T isProd P party w log w₂)
    (second : Conversation T isProd P party w' log' w₂') (length : log.length = log'.length)
    (settled : w.Settled) (settled' : w'.Settled) (registered : Registered P w email own)
    (taken : w'.passwordOf email = some stored) (about : party.About T email)
    (ignorant : party.Ignorant T P email stored) :
    (¬TriesOwn T own (log.map Prod.fst) →
      (responses log).map Response.blank = (responses log').map Response.blank ∧
        NewIds w (responses log) ∧ NewIds w' (responses log')) ∧
    (TriesOwn T own (log.map Prod.fst) →
      (responses log).map Response.status ≠ (responses log').map Response.status) := by
  -- `own` changes with each registration, so it is general in the induction
  induction first generalizing own w' log' w₂' with
  | nil =>
    cases second with
    | nil => exact ⟨fun _ => ⟨rfl, .nil _, .nil _⟩, False.elim⟩
    | cons => simp at length
  | @cons party w w₁ w₂ i res log run rest ih =>
    cases second with
    | nil => simp at length
    | @cons _ _ w₁' _ i' res' log' run' rest' =>
    rw [List.length_cons, List.length_cons, Nat.add_right_cancel_iff] at length
    cases accepted : (party []).request.receive T with
    | error exc =>
      -- a rejected body touches nothing and gets the same answer in both runs
      obtain ⟨rfl, rfl⟩ := (respond_rejected accepted).runs run res rfl
      obtain ⟨rfl, rfl⟩ := (respond_rejected accepted).runs run' res' rfl
      have later := ih rest' length settled settled' registered taken (about.later _)
        (ignorant.later _)
      simp only [List.map_cons, TriesOwn.of_rejected accepted]
      constructor
      · intro never
        obtain ⟨same, new, new'⟩ := later.1 never
        refine ⟨by rw [same], .cons ?_ ?_ ?_ (List.Subset.refl _) new,
          .cons ?_ ?_ ?_ (List.Subset.refl _) new'⟩ <;> simp [ids_problemResponse]
      · intro tries same
        exact later.2 tries (List.cons.inj same).2
    | ok c =>
      have answers := (respond_accepted settled accepted).runs run res rfl
      have answers' := (respond_accepted settled' accepted).runs run' res' rfl
      have asked := about [] c accepted
      have unknown : ∀ password, c = .login email password → opens P password stored = false :=
        fun password login => ignorant [] password (login ▸ accepted)
      obtain ⟨shown, hit, miss⟩ :=
        answers_pair bcrypt registered taken asked unknown answers answers'
      simp only [List.map_cons, triesOwn_cons accepted]
      by_cases tried : ∃ password, c = .login c.email password ∧ (party []).up = true ∧
          ∃ known ∈ own, bcryptInput password = bcryptInput known
      · refine ⟨fun never => absurd (.inl tried) never, fun _ same => ?_⟩
        obtain ⟨password, login, up, -⟩ := id tried
        -- 200 in the run without the account, 401 in the run with it
        have status : res'.status = 401 := by
          have view := congrArg View.status shown.1
          rw [login, up] at view
          exact view
        have heads := (List.cons.inj same).1
        rw [hit tried, status] at heads
        exact absurd heads (by decide)
      -- both answers are the expected one, so the party goes on with the same view
      · have looks := miss tried
        have blank : res'.blank = res.blank := shown.1.trans looks.1.symm
        rw [blank] at rest'
        have later := ih rest' length (answers.settled settled) (answers'.settled settled')
          (answers.registered asked registered) (answers'.kept taken) (about.later _)
          (ignorant.later _)
        constructor
        · intro never
          obtain ⟨same, new, new'⟩ := later.1 fun tries => never (.inr tries)
          exact ⟨by rw [same, blank], looks.2 _ new, shown.2 _ new'⟩
        · rintro (now | tries) same
          · exact tried now
          · exact later.2 tries (List.cons.inj same).2

end Pair

/-! ### Renaming -/

/-- Two lists without repetition can be renamed into each other. -/
theorem exists_rename {xs ys : List String} (nodup : xs.Nodup) (nodup' : ys.Nodup)
    (length : xs.length = ys.length) :
    ∃ ρ : String → String, Renames ρ xs ∧ xs.map ρ = ys := by
  induction xs generalizing ys with
  | nil =>
    cases ys with
    | nil => exact ⟨id, by simp [Renames], rfl⟩
    | cons => simp at length
  | cons x xs ih =>
    cases ys with
    | nil => simp at length
    | cons y ys =>
    rw [List.nodup_cons] at nodup nodup'
    obtain ⟨ρ, injective, renamed⟩ := ih nodup.2 nodup'.2 (by simpa using length)
    -- the first id gets the first name; it occurs nowhere behind
    have elsewhere : ∀ z ∈ xs, Function.update ρ x y z = ρ z := by
      intro z member
      have other : z ≠ x := by
        rintro rfl
        exact nodup.1 member
      exact Function.update_of_ne other y ρ
    have image : ∀ z ∈ xs, ρ z ∈ ys := fun z member => renamed ▸ List.mem_map_of_mem member
    refine ⟨Function.update ρ x y, ?_, ?_⟩
    · intro a ha b hb same
      rw [List.mem_cons] at ha hb
      rcases ha with rfl | ha <;> rcases hb with rfl | hb
      · rfl
      · rw [Function.update_self, elsewhere b hb] at same
        exact absurd (same ▸ image b hb) nodup'.1
      · rw [Function.update_self, elsewhere a ha] at same
        exact absurd (same ▸ image a ha) nodup'.1
      · rw [elsewhere a ha, elsewhere b hb] at same
        exact injective a ha b hb same
    · rw [List.map_cons, Function.update_self, List.map_congr_left elsewhere, renamed]

theorem view_eq_of_blank {ρ : String → String} {first second : List Response}
    (blank : first.map Response.blank = second.map Response.blank)
    (ids : (first.flatMap Response.ids).map ρ = second.flatMap Response.ids) :
    first.map (Response.view ρ) = second.map (Response.view id) := by
  induction first generalizing second with
  | nil =>
    cases second with
    | nil => rfl
    | cons => simp at blank
  | cons res first ih =>
    cases second with
    | nil => simp at blank
    | cons res' second =>
    rw [List.map_cons, List.map_cons, List.cons.injEq] at blank
    obtain ⟨head, tail⟩ := blank
    obtain ⟨status, body, cookies⟩ := res
    obtain ⟨status', body', cookies'⟩ := res'
    simp only [Response.view, View.mk.injEq] at head
    obtain ⟨rfl, bodies, headers⟩ := head
    cases body with
    | user profile =>
      cases body' with
      | user profile' =>
        simp only [List.flatMap_cons, Response.ids, List.map_cons, List.cons_append,
          List.nil_append, List.cons.injEq] at ids
        simp only [BodyView.user.injEq, true_and] at bodies
        rw [List.map_cons, List.map_cons, ih tail ids.2]
        simp [Response.view, ids.1, bodies, headers]
      | problem details => cases bodies
    | problem details =>
      cases body' with
      | user profile' => cases bodies
      | problem details' =>
        simp only [List.flatMap_cons, Response.ids, List.nil_append] at ids
        rw [List.map_cons, List.map_cons, ih tail ids]
        simp only [BodyView.problem.injEq] at bodies
        simp [Response.view, bodies, headers]

theorem length_ids_of_blank {first second : List Response}
    (blank : first.map Response.blank = second.map Response.blank) :
    (first.flatMap Response.ids).length = (second.flatMap Response.ids).length := by
  -- how many ids a response has can be told from its view
  have count : ∀ responses : List Response, (responses.flatMap Response.ids).length =
      ((responses.map Response.blank).map fun view => match view.body with
        | .user _ _ => 1
        | .problem _ => 0).sum := by
    intro responses
    rw [List.length_flatMap, List.map_map]
    congr 1
    apply List.map_congr_left
    rintro ⟨status, body, cookies⟩ -
    cases body <;> rfl
  rw [count, count, blank]

/-! ### Runs to compute with -/

section Examples

/-- Executes a conversation with given choices, one list of them for each request. -/
def converse (T : TextChecks) (isProd : Bool) (P : Platform) (party : Party) :
    List (List Choice) → World → Option (List (Ask × Response))
  | [], _ => some []
  | chs :: rest, w =>
    if chs.all fun ch => decide (ch.fault = none ↔ (party []).up = true) then
      match replay (machine P) 0 ((party []).request.respond T isProd P) chs w with
      | some (.ok res, w₁) =>
        (converse T isProd P (fun seen => party (res.blank :: seen)) rest w₁).map
          fun log => (party [], res) :: log
      | _ => none
    else none

theorem conversation_of_converse {party : Party} {chss : List (List Choice)}
    {log : List (Ask × Response)} (done : converse T isProd P party chss w = some log) :
    ∃ w₁, Conversation T isProd P party w log w₁ := by
  induction chss generalizing party w log with
  | nil =>
    cases done
    exact ⟨w, .nil party w⟩
  | cons chs rest ih =>
    simp only [converse] at done
    split at done
    next fair =>
      split at done
      next res w₁ replayed =>
        obtain ⟨log', later, rfl⟩ := Option.map_eq_some_iff.mp done
        obtain ⟨w₂, conversation⟩ := ih later
        have allowed : ∀ ch ∈ chs, ∀ (c : Cmd) (w : World), storesUp (party []).up ch := by
          intro ch member c w
          have each := List.all_eq_true.mp fair ch member
          rwa [decide_eq_true_eq] at each
        have run := runs_of_replay (K := alone P (storesUp (party []).up))
          (fun w => ⟨0, rfl⟩) allowed replayed
        exact ⟨w₂, .cons run conversation⟩
      · cases done
    · cases done

theorem exists_conversation (T : TextChecks) (isProd : Bool) (P : Platform) (party : Party)
    (chss : List (List Choice)) (w : World) (test : List (Ask × Response) → Bool)
    (passed : ((converse T isProd P party chss w).any test) = true) :
    ∃ log w₁, Conversation T isProd P party w log w₁ ∧ test log = true := by
  obtain ⟨log, done, holds⟩ := (Option.any_eq_true _ _).mp passed
  obtain ⟨w₁, conversation⟩ := conversation_of_converse done
  exact ⟨log, w₁, conversation, holds⟩

theorem Conversation.asked {party : Party} {log : List (Ask × Response)} {w₁ : World}
    (conversation : Conversation T isProd P party w log w₁) :
    ∀ exchange ∈ log, ∃ seen, exchange.1 = party seen := by
  induction conversation with
  | nil => simp
  | @cons party w w₁ w₂ i res log run rest ih =>
    intro exchange member
    rw [List.mem_cons] at member
    rcases member with rfl | later
    · exact ⟨[], rfl⟩
    · obtain ⟨seen, same⟩ := ih exchange later
      exact ⟨res.blank :: seen, same⟩

/-- Registrations alone try no password. -/
theorem not_triesOwn_of_register {own : Option String} {asks : List Ask}
    (registers : ∀ ask ∈ asks, ∃ email password,
      ask.request.receive T = .ok (.register email password)) : ¬TriesOwn T own asks := by
  induction asks generalizing own with
  | nil => exact id
  | cons ask asks ih =>
    obtain ⟨email, password, accepted⟩ := registers ask List.mem_cons_self
    simp only [TriesOwn, accepted]
    exact ih fun ask' member => registers ask' (List.mem_cons_of_mem ask member)

def credentials (password : String) : Json :=
  .obj [("email", .str "u@ab.cd"), ("password", .str password)]

/-- A world in which the email has an account, with a password the client does not know. -/
def occupied : World :=
  { World.empty 5000 with
    users := ⟨[⟨⟨"id0", "u@ab.cd", some (Platform.plain.bcryptHash "Unknown99" "s"), none, none, 1000⟩,
      none⟩], by simp [userKeys]⟩
    drawn := ["id0"] }

theorem empty_settled : (World.empty 5000).Settled := ⟨by simp [World.empty], by simp [World.empty]⟩

theorem occupied_settled : occupied.Settled := ⟨by simp [occupied], by simp [occupied, World.empty]⟩

/-- Registers over and over. -/
def registrant : Party := fun _ => ⟨.register (credentials "Secret123"), true⟩

/-- Registers once, then logs in with the same password. -/
def prober : Party := fun seen =>
  ⟨if seen = [] then .register (credentials "Secret123") else .login (credentials "Secret123"), true⟩

/-- The choices for a registration that creates the account, one that is a decoy, and a login. -/
def creating (id : String) : List Choice := [{ draw := "salt" }, { draw := id }, {}]

def deceiving (id : String) : List Choice :=
  [{ draw := "salt" }, { draw := id ++ "'" }, {}, { draw := id }, {}]

def entering : List Choice := [{}, { draw := "jti" }, { draw := "family" }, {}, {}, {}]

theorem receive_register : (AuthRequest.register (credentials "Secret123")).receive
    TextChecks.plain = .ok (.register "u@ab.cd" "Secret123") := rfl

theorem receive_login : (AuthRequest.login (credentials "Secret123")).receive
    TextChecks.plain = .ok (.login "u@ab.cd" "Secret123") := rfl

theorem registrant_about : registrant.About TextChecks.plain "u@ab.cd" := by
  intro seen c accepted
  cases receive_register.symm.trans accepted
  rfl

theorem registrant_ignorant (hash : Option String) :
    registrant.Ignorant TextChecks.plain Platform.plain "u@ab.cd" hash := by
  intro seen password accepted
  cases receive_register.symm.trans accepted

theorem prober_about : prober.About TextChecks.plain "u@ab.cd" := by
  intro seen c accepted
  simp only [prober] at accepted
  split at accepted
  · cases receive_register.symm.trans accepted
    rfl
  · cases receive_login.symm.trans accepted
    rfl

theorem occupied_passwordOf :
    occupied.passwordOf "u@ab.cd" = some (some (Platform.plain.bcryptHash "Unknown99" "s")) := by
  decide +kernel

theorem prober_ignorant : prober.Ignorant TextChecks.plain Platform.plain "u@ab.cd"
    (some (Platform.plain.bcryptHash "Unknown99" "s")) := by
  intro seen password accepted
  simp only [prober] at accepted
  split at accepted
  · cases receive_register.symm.trans accepted
  · cases receive_login.symm.trans accepted
    decide +kernel

end Examples

/-! ### Registration and enumeration -/

/-- A party that does not know the password of an account cannot tell whether it is there, unless
it logs in with a password of its own under which it registered the email before. -/
theorem registration_silent_iff (bcrypt : Bcrypt P) {party : Party}
    {hash : Option String} {log log' : List (Ask × Response)} {w₁ w₁' : World}
    (settled : w.Settled) (settled' : w'.Settled)
    (free : w.passwordOf email = none) (taken : w'.passwordOf email = some hash)
    (about : party.About T email) (ignorant : party.Ignorant T P email hash)
    (first : Conversation T isProd P party w log w₁)
    (second : Conversation T isProd P party w' log' w₁') (length : log.length = log'.length) :
    Alike (responses log) (responses log') ↔ ¬TriesOwn T none (log.map Prod.fst) := by
  have registered : Registered P w email none := free
  have pair := conversations_pair bcrypt first second length settled settled' registered taken
    about ignorant
  constructor
  · intro alike tries
    exact pair.2 tries alike.statuses
  · intro never
    -- the views agree but for the ids, and the ids are new in both runs
    obtain ⟨blank, new, new'⟩ := pair.1 never
    obtain ⟨ρ, renames, ids⟩ := exists_rename new.nodup new'.nodup (length_ids_of_blank blank)
    exact ⟨ρ, renames, view_eq_of_blank blank ids⟩

theorem registration_silent_iff_registrant :
    ∃ log log' w₁ w₁', Conversation TextChecks.plain true Platform.plain registrant
        (World.empty 5000) log w₁ ∧
      Conversation TextChecks.plain true Platform.plain registrant occupied log' w₁' ∧
      log.length = 2 ∧ Alike (responses log) (responses log') := by
  obtain ⟨log, w₁, first, size⟩ := exists_conversation TextChecks.plain true Platform.plain
    registrant [creating "id1", deceiving "id2"] (World.empty 5000)
    (fun log => decide (log.length = 2)) (by decide +kernel)
  obtain ⟨log', w₁', second, size'⟩ := exists_conversation TextChecks.plain true Platform.plain
    registrant [deceiving "id1", deceiving "id2"] occupied
    (fun log => decide (log.length = 2)) (by decide +kernel)
  rw [decide_eq_true_eq] at size size'
  refine ⟨log, log', w₁, w₁', first, second, size, ?_⟩
  refine (registration_silent_iff Platform.plain_bcrypt empty_settled occupied_settled rfl
    occupied_passwordOf registrant_about (registrant_ignorant _) first second
    (size.trans size'.symm)).mpr ?_
  apply not_triesOwn_of_register
  intro ask member
  obtain ⟨exchange, logged, rfl⟩ := List.mem_map.mp member
  obtain ⟨seen, same⟩ := first.asked exchange logged
  rw [same]
  exact ⟨_, _, receive_register⟩

/-- Whoever registers an email and logs in with the same password learns whether it had an
account before. -/
theorem registration_reveals_account :
    ¬∀ (party : Party) (email : String) (hash : Option String) (w w' w₁ w₁' : World)
      (log log' : List (Ask × Response)), w.Settled → w'.Settled → w.passwordOf email = none →
      w'.passwordOf email = some hash → party.About TextChecks.plain email →
      party.Ignorant TextChecks.plain Platform.plain email hash →
      Conversation TextChecks.plain true Platform.plain party w log w₁ →
      Conversation TextChecks.plain true Platform.plain party w' log' w₁' →
      log.length = log'.length → Alike (responses log) (responses log') := by
  intro silent
  obtain ⟨log, w₁, first, shown⟩ := exists_conversation TextChecks.plain true Platform.plain
    prober [creating "id1", entering] (World.empty 5000)
    (fun log => decide ((responses log).map Response.status = [201, 200])) (by decide +kernel)
  obtain ⟨log', w₁', second, shown'⟩ := exists_conversation TextChecks.plain true Platform.plain
    prober [deceiving "id1", [{}]] occupied
    (fun log => decide ((responses log).map Response.status = [201, 401])) (by decide +kernel)
  rw [decide_eq_true_eq] at shown shown'
  have size : log.length = log'.length := by
    have lengths := congrArg List.length shown
    have lengths' := congrArg List.length shown'
    simp only [List.length_map, List.length_cons, List.length_nil] at lengths lengths'
    omega
  have alike := silent prober "u@ab.cd" _ (World.empty 5000) occupied w₁ w₁' log log'
    empty_settled occupied_settled rfl occupied_passwordOf prober_about prober_ignorant first
    second size
  have statuses := alike.statuses
  rw [shown, shown'] at statuses
  exact absurd statuses (by decide)

end Mikrouli
