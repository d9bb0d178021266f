import Mathlib.Data.Fintype.EquivFin
import Mikrouli.Model.World

/-! What one command can do: a frame for every command, and for each command that writes
its possible outcomes. Later proofs use these instead of unfolding `exec`. -/

namespace Mikrouli

open Async Store

variable {P : Platform} {i : Nat} {ch : Choice} {w w' : World}

/-! ### Frames -/

def Cmd.writesRedis : Cmd → Bool
  | .redisSet _ _ _ | .redisDel _ | .redisGetDel _ => true
  | _ => false

def Cmd.onRedis : Cmd → Bool
  | .redisGet _ | .redisSet _ _ _ | .redisDel _ | .redisGetDel _ => true
  | _ => false

def Cmd.writesAccounts : Cmd → Bool
  | .commit | .rollback | .insertUser _ _ | .saveProviderAccount _ _ => true
  | _ => false

def Cmd.writesLinks : Cmd → Bool
  | .insertLinkWithOutbox _ | .updateLink _ _ _ | .deleteLink _ => true
  | _ => false

def Cmd.writesKeys : Cmd → Bool
  | .saveApiKey _ _ _ _ | .revokeApiKey _ _ _ | .touchApiKey _ _ => true
  | _ => false

def Cmd.signs : Cmd → Bool
  | .sign _ _ _ => true
  | _ => false

/-- What a command leaves alone. -/
structure Cmd.Frame (c : Cmd) (w w' : World) : Prop where
  now : w'.now = w.now
  redis : c.writesRedis = false → w'.redis = w.redis
  users : c.writesAccounts = false → w'.users = w.users
  providerAccounts : c.writesAccounts = false → w'.providerAccounts = w.providerAccounts
  links : c.writesLinks = false → w'.links = w.links
  apiKeys : c.writesKeys = false → w'.apiKeys = w.apiKeys
  signed : c.signs = false → w'.signed = w.signed
  drawn : w.drawn ⊆ w'.drawn

theorem drawFresh_eq_some {draw : String} :
    w.drawFresh draw = some w' ↔
      (draw ≠ "" ∧ draw ∉ w.drawn) ∧ w' = { w with drawn := draw :: w.drawn } := by
  unfold World.drawFresh
  split
  next used =>
    simp only [reduceCtorEq, false_iff]
    rintro ⟨⟨named, unused⟩, -⟩
    exact used.elim named unused
  next fresh =>
    rw [Option.some.injEq]
    push Not at fresh
    simp [fresh, eq_comm]

theorem insertLinkWithOutbox_ok {fault : Option Nat} {fields : LinkFields} {link : Link}
    (returned : w.insertLinkWithOutbox fault fields = .ok (link, w')) :
    ∃ links, w.links.insert? link = some links ∧
      link = ⟨fields.shortUrl, fields.originalUrl, fields.userId, w.now, fields.expiresAt⟩ ∧
      w' = { w with
        links := links
        outbox := ⟨"link_created", fields.shortUrl.1, fields.originalUrl⟩ :: w.outbox } := by
  simp only [World.insertLinkWithOutbox] at returned
  split at returned
  · cases returned
  split at returned
  · cases returned
  next links inserted =>
    split at returned
    · cases returned
    split at returned
    · cases returned
    split at returned
    next found row =>
      rw [Table.byKey_insert inserted] at row
      simp only [Link.slugKey, ↓reduceIte, Option.some.injEq] at row
      cases returned
      subst row
      exact ⟨links, inserted, rfl, rfl⟩
    · cases returned

theorem Cmd.Frame.same (c : Cmd) (w : World) : c.Frame w w :=
  ⟨rfl, fun _ => rfl, fun _ => rfl, fun _ => rfl, fun _ => rfl, fun _ => rfl, fun _ => rfl,
    fun _ member => member⟩

theorem exec_frame {c : Cmd} {res : Except AppError c.Res}
    (returned : exec P i c ch w = some (res, w')) : c.Frame w w' := by
  cases c with
  | verify secret token =>
    cases token <;> simp only [exec] at returned <;> (repeat' split at returned) <;>
      cases returned <;> exact .same _ _
  | insertLinkWithOutbox fields =>
    simp only [exec] at returned
    split at returned <;> cases returned
    · exact .same _ _
    next link inserted =>
      obtain ⟨links, -, -, rfl⟩ := insertLinkWithOutbox_ok inserted
      constructor <;> simp [Cmd.writesLinks]
  | _ =>
    simp only [exec] at returned
    (repeat' split at returned) <;> cases returned <;>
      first
        | exact .same _ _
        | (try simp_all only [drawFresh_eq_some]
           constructor <;> simp [Cmd.writesRedis, Cmd.writesAccounts, Cmd.writesKeys,
             Cmd.writesLinks, Cmd.signs, World.commit, World.rollback])

/-! ### The links table -/

theorem World.link?_eq_some {slug : String} {l : Link} :
    w.link? slug = some l ↔ l ∈ w.links.rows ∧ l.slugKey = bpchar slug :=
  Table.byKey_eq_some (by simp)

/-- A row is found under its own slug. -/
theorem World.link?_self {slug : String} {l : Link} (found : w.link? slug = some l) :
    w.link? l.shortUrl.1 = some l :=
  World.link?_eq_some.mpr ⟨(World.link?_eq_some.mp found).1, rfl⟩

theorem World.link?_insert {links : LinkTable} {link : Link}
    (inserted : w.links.insert? link = some links) (slug : String) :
    ({ w with links := links } : World).link? slug =
      if link.slugKey = bpchar slug then some link else w.link? slug :=
  Table.byKey_insert inserted _ _

/-- An inserted slug was free. -/
theorem World.link?_of_insert {links : LinkTable} {link : Link}
    (inserted : w.links.insert? link = some links) {slug : String}
    (same : link.slugKey = bpchar slug) : w.link? slug = none := by
  have free := Table.clash?_eq_none.mp (Table.insert?_eq_some.mp inserted).1
  rw [World.link?, Table.byKey_eq_none]
  intro r member
  rw [← same]
  exact free r member Link.slugKey (by simp)

theorem World.link?_setOriginalUrl (slug userId originalUrl s : String) :
    ({ w with links := w.setOriginalUrl slug userId originalUrl } : World).link? s =
      (w.link? s).map fun l =>
        if l.slugKey = bpchar slug ∧ l.userId = userId then { l with originalUrl } else l := by
  have updated := Table.byKey_update (t := w.links) (k := Link.slugKey) (by simp)
    (fun l => decide (l.slugKey = bpchar slug) && decide (l.userId = userId))
    (fun l => { l with originalUrl := originalUrl }) (by simp [Link.slugKey]) (bpchar s)
  simpa only [World.link?, World.setOriginalUrl, Bool.and_eq_true, decide_eq_true_eq] using updated

theorem World.link?_delete (slug s : String) :
    ({ w with links := w.links.delete fun l => decide (l.slugKey = bpchar slug) } : World).link? s =
      if bpchar s = bpchar slug then none else w.link? s := by
  unfold World.link?
  split
  next same => rw [same]; exact Table.byKey_delete_self _ _
  next other => exact Table.byKey_delete_of_ne other

theorem World.mem_setOriginalUrl {slug userId originalUrl : String} {l : Link} :
    l ∈ (w.setOriginalUrl slug userId originalUrl).rows ↔ ∃ l₀ ∈ w.links.rows,
      (if l₀.slugKey = bpchar slug ∧ l₀.userId = userId then { l₀ with originalUrl } else l₀) = l := by
  rw [World.setOriginalUrl, Table.mem_update]
  simp only [Bool.and_eq_true, decide_eq_true_eq]

/-! ### The table of API keys -/

theorem World.mem_touchedKeys {p : ApiKey → Bool} {f : ApiKey → ApiKey}
    (kept : ∀ k, (f k).id = k.id) {k : ApiKey} :
    k ∈ (w.touchedKeys p f kept).rows ↔ ∃ k₀ ∈ w.apiKeys.rows, (if p k₀ then f k₀ else k₀) = k := by
  rw [World.touchedKeys, Table.mem_update]

/-! ### The accounts tables -/

theorem World.userById_eq_some {id : String} {user : User} (found : w.userById i id = some user) :
    ∃ v ∈ w.users.rows, v.row = user ∧ v.visible i = true ∧ user.id = id := by
  obtain ⟨v, hit, rfl⟩ := Option.map_eq_some_iff.mp found
  have holds := List.find?_some hit
  simp only [Bool.and_eq_true, decide_eq_true_eq] at holds
  exact ⟨v, List.mem_of_find?_eq_some hit, rfl, holds.1, holds.2⟩

theorem World.userByEmail_eq_some {email : String} {user : User}
    (found : w.userByEmail i email = some user) :
    ∃ v ∈ w.users.rows, v.row = user ∧ v.visible i = true ∧ user.email = email := by
  obtain ⟨v, hit, rfl⟩ := Option.map_eq_some_iff.mp found
  have holds := List.find?_some hit
  simp only [Bool.and_eq_true, decide_eq_true_eq] at holds
  exact ⟨v, List.mem_of_find?_eq_some hit, rfl, holds.1, holds.2⟩

theorem World.userByEmail_eq_none {email : String} (missing : w.userByEmail i email = none) :
    ∀ v ∈ w.users.rows, v.visible i = true → v.row.email ≠ email := by
  intro v member seen same
  have absent := List.find?_eq_none.mp (Option.map_eq_none_iff.mp missing) v member
  simp [seen, same] at absent

theorem World.userById_eq_none {id : String} (missing : w.userById i id = none) :
    ∀ v ∈ w.users.rows, v.visible i = true → v.row.id ≠ id := by
  intro v member seen same
  have absent := List.find?_eq_none.mp (Option.map_eq_none_iff.mp missing) v member
  simp [seen, same] at absent

theorem userById_of_row {user : User}
    (row : (⟨user, none⟩ : Versioned User) ∈ w.users.rows) : w.userById i user.id = some user := by
  cases found : w.userById i user.id with
  | none => exact absurd rfl (World.userById_eq_none found _ row (by simp [Versioned.visible]))
  | some user' =>
    obtain ⟨v, member, rfl, -, same⟩ := World.userById_eq_some found
    have rows : v = ⟨user, none⟩ :=
      Table.eq_of_key (k := fun v : Versioned User => v.row.id) (by simp) member row same
    rw [rows]

theorem World.providerAccount_eq_some {providerUserId : String} {account : ProviderAccount}
    (found : w.providerAccount i providerUserId = some account) :
    ∃ v ∈ w.providerAccounts.rows,
      v.row = account ∧ v.visible i = true ∧ account.providerUserId = providerUserId := by
  obtain ⟨v, hit, rfl⟩ := Option.map_eq_some_iff.mp found
  have holds := List.find?_some hit
  simp only [Bool.and_eq_true, decide_eq_true_eq] at holds
  exact ⟨v, List.mem_of_find?_eq_some hit, rfl, holds.1, holds.2⟩

theorem World.providerAccount_eq_none {providerUserId : String}
    (missing : w.providerAccount i providerUserId = none) :
    ∀ v ∈ w.providerAccounts.rows, v.visible i = true → v.row.providerUserId ≠ providerUserId := by
  intro v member seen same
  have absent := List.find?_eq_none.mp (Option.map_eq_none_iff.mp missing) v member
  simp [seen, same] at absent

theorem Versioned.visible_eq_true {V : Type} {v : Versioned V} :
    v.visible i = true ↔ v.tx = none ∨ v.tx = some i := by
  simp [Versioned.visible]

theorem mem_users_commit {v : Versioned User} :
    v ∈ (w.commit i).users.rows ↔ ∃ v' ∈ w.users.rows, World.commitRows i v' = v := by
  simp [World.commit, Table.mem_update]

theorem mem_providerAccounts_commit {v : Versioned ProviderAccount} :
    v ∈ (w.commit i).providerAccounts.rows ↔
      ∃ v' ∈ w.providerAccounts.rows, World.commitRows i v' = v := by
  simp [World.commit, Table.mem_update]

theorem mem_users_rollback {v : Versioned User} :
    v ∈ (w.rollback i).users.rows ↔ v ∈ w.users.rows ∧ v.tx ≠ some i := by
  simp [World.rollback, Table.mem_delete]

theorem mem_providerAccounts_rollback {v : Versioned ProviderAccount} :
    v ∈ (w.rollback i).providerAccounts.rows ↔ v ∈ w.providerAccounts.rows ∧ v.tx ≠ some i := by
  simp [World.rollback, Table.mem_delete]

theorem commitRows_of_ne {V : Type} {v : Versioned V} (other : v.tx ≠ some i) :
    World.commitRows i v = v := by
  simp [World.commitRows, other]

theorem commitRows_own {V : Type} (row : V) :
    World.commitRows i ⟨row, some i⟩ = ⟨row, none⟩ := by
  simp [World.commitRows]

/-- A row after a commit was there before, and belonged to the transaction only if it is now
committed. -/
theorem commitRows_cases {V : Type} {v v' : Versioned V} (same : World.commitRows i v' = v) :
    v'.row = v.row ∧ (v' = v ∧ v.tx ≠ some i ∨ v'.tx = some i ∧ v.tx = none) := by
  subst same
  refine ⟨(World.commitRows_row i v').symm, ?_⟩
  by_cases own : v'.tx = some i
  · exact .inr ⟨own, by simp [World.commitRows, own]⟩
  · rw [commitRows_of_ne own]
    exact .inl ⟨rfl, own⟩

section Insert

variable {V : Type} {keys : List (Versioned V → String)} {t t' : Table (Versioned V) keys} {row : V}

/-- An insertion fails on a row the transaction sees. -/
theorem insertVersioned_error {e : AppError}
    (inserted : World.insertVersioned t i row = some (.error e)) :
    e = .uniqueViolation ∧
      ∃ r ∈ t.rows, r.visible i = true ∧ ∃ k ∈ keys, k r = k ⟨row, some i⟩ := by
  unfold World.insertVersioned at inserted
  split at inserted
  next clash =>
    cases inserted
    simpa using clash
  · obtain ⟨t', -, same⟩ := Option.map_eq_some_iff.mp inserted
    cases same

theorem insertVersioned_ok (inserted : World.insertVersioned t i row = some (.ok t')) :
    t'.rows = ⟨row, some i⟩ :: t.rows := by
  unfold World.insertVersioned at inserted
  split at inserted
  · cases inserted
  · obtain ⟨t', fresh, same⟩ := Option.map_eq_some_iff.mp inserted
    cases same
    exact (Table.insert?_eq_some.mp fresh).2

/-- An insertion waits for a row of another transaction. -/
theorem insertVersioned_none (waits : World.insertVersioned t i row = none) :
    ∃ r ∈ t.rows, r.visible i = false ∧ ∃ k ∈ keys, k r = k ⟨row, some i⟩ := by
  unfold World.insertVersioned at waits
  split at waits
  · cases waits
  next unseen =>
    have clash := Table.insert?_eq_none.mp (Option.map_eq_none_iff.mp waits)
    obtain ⟨r, found⟩ := Option.ne_none_iff_exists'.mp clash
    obtain ⟨member, k, hk, same⟩ := Table.clash?_eq_some found
    refine ⟨r, member, ?_, k, hk, same⟩
    by_contra seen
    rw [Bool.not_eq_false] at seen
    refine unseen (List.any_eq_true.mpr ⟨r, member, ?_⟩)
    rw [seen, Bool.true_and]
    exact List.any_eq_true.mpr ⟨k, hk, decide_eq_true same⟩

end Insert

/-- There is always a value left to draw. -/
theorem exists_drawFresh (w : World) :
    ∃ draw, w.drawFresh draw = some { w with drawn := draw :: w.drawn } := by
  have infinite : Infinite String :=
    Infinite.of_injective (fun n => String.ofList (List.replicate n 'a')) fun n m same => by
      have lengths := congrArg List.length (String.ofList_injective same)
      simpa using lengths
  obtain ⟨draw, new⟩ := Infinite.exists_notMem_finset ("" :: w.drawn).toFinset
  rw [List.mem_toFinset, List.mem_cons, not_or] at new
  exact ⟨draw, drawFresh_eq_some.mpr ⟨new, rfl⟩⟩

/-! ### Outcomes -/

theorem exec_bcryptHash {password : String} {res : Except AppError String}
    (returned : exec P i (.bcryptHash password) ch w = some (res, w')) :
    w' = w ∧ ∃ salt, res = .ok (P.bcryptHash password salt) := by
  simp only [exec] at returned
  cases returned
  exact ⟨rfl, _, rfl⟩

theorem exec_commit {res : Except AppError Unit}
    (returned : exec P i .commit ch w = some (res, w')) :
    (ch.fault ≠ none ∧ res = .error .queryFailed ∧ w' = w.rollback i) ∨
      (ch.fault = none ∧ res = .ok () ∧ w' = w.commit i) := by
  simp only [exec] at returned
  split at returned <;> cases returned <;> simp_all [Option.isSome_iff_ne_none]

theorem exec_rollback {res : Except AppError Unit}
    (returned : exec P i .rollback ch w = some (res, w')) : w' = w.rollback i ∧ res = .ok () := by
  simp only [exec] at returned
  cases returned
  exact ⟨rfl, rfl⟩

theorem exec_findUserByEmail {email : String} {res : Except AppError (Option User)}
    (returned : exec P i (.findUserByEmail email) ch w = some (res, w')) :
    w' = w ∧ ((ch.fault ≠ none ∧ res = .error .queryFailed) ∨ res = .ok (w.userByEmail i email)) := by
  simp only [exec] at returned
  split at returned <;> cases returned <;> simp_all [Option.isSome_iff_ne_none]

theorem exec_findProviderAccount {providerUserId : String}
    {res : Except AppError (Option ProviderAccount)}
    (returned : exec P i (.findProviderAccount providerUserId) ch w = some (res, w')) :
    w' = w ∧ ((ch.fault ≠ none ∧ res = .error .queryFailed) ∨
      res = .ok (w.providerAccount i providerUserId)) := by
  simp only [exec] at returned
  split at returned <;> cases returned <;> simp_all [Option.isSome_iff_ne_none]

theorem exec_insertUser {email : String} {passwordHash : Option String}
    {res : Except AppError User}
    (returned : exec P i (.insertUser email passwordHash) ch w = some (res, w')) :
    w'.providerAccounts = w.providerAccounts ∧
      ((ch.fault ≠ none ∧ res = .error .queryFailed ∧ w' = w) ∨
        (ch.draw ∉ w.drawn ∧ w'.drawn = ch.draw :: w.drawn ∧
          ((res = .error .uniqueViolation ∧ w'.users = w.users ∧
              ∃ v ∈ w.users.rows, v.visible i = true ∧
                (v.row.id = ch.draw ∨ v.row.email = email)) ∨
            ∃ user : User, user = ⟨ch.draw, email, passwordHash, none, none, w.now⟩ ∧
              res = .ok user ∧ w'.users.rows = ⟨user, some i⟩ :: w.users.rows))) := by
  simp only [exec] at returned
  split at returned
  next faulty =>
    cases returned
    exact ⟨rfl, .inl ⟨Option.isSome_iff_ne_none.mp faulty, rfl, rfl⟩⟩
  split at returned
  · cases returned
  next w₁ fresh =>
    obtain ⟨⟨-, unused⟩, rfl⟩ := drawFresh_eq_some.mp fresh
    split at returned
    · cases returned
    next e clash =>
      cases returned
      obtain ⟨rfl, v, member, seen, k, hk, same⟩ := insertVersioned_error clash
      refine ⟨rfl, .inr ⟨unused, rfl, .inl ⟨rfl, rfl, v, member, seen, ?_⟩⟩⟩
      simp only [userKeys, List.mem_cons, List.not_mem_nil, or_false] at hk
      rcases hk with rfl | rfl
      · exact .inl same
      · exact .inr same
    next users inserted =>
      cases returned
      exact ⟨rfl, .inr ⟨unused, rfl, .inr ⟨_, rfl, rfl, insertVersioned_ok inserted⟩⟩⟩

theorem exec_saveProviderAccount {providerUserId userId : String}
    {res : Except AppError ProviderAccount}
    (returned : exec P i (.saveProviderAccount providerUserId userId) ch w = some (res, w')) :
    w'.users = w.users ∧
      ((ch.fault ≠ none ∧ res = .error .queryFailed ∧ w' = w) ∨
        (ch.draw ∉ w.drawn ∧ w'.drawn = ch.draw :: w.drawn ∧
          ((res = .error .uniqueViolation ∧ w'.providerAccounts = w.providerAccounts ∧
              ∃ v ∈ w.providerAccounts.rows, v.visible i = true ∧
                (v.row.id = ch.draw ∨ v.row.providerUserId = providerUserId ∨
                  v.row.userId = userId)) ∨
            ∃ account : ProviderAccount, account = ⟨ch.draw, providerUserId, userId⟩ ∧
              res = .ok account ∧
              w'.providerAccounts.rows = ⟨account, some i⟩ :: w.providerAccounts.rows))) := by
  simp only [exec] at returned
  split at returned
  next faulty =>
    cases returned
    exact ⟨rfl, .inl ⟨Option.isSome_iff_ne_none.mp faulty, rfl, rfl⟩⟩
  split at returned
  · cases returned
  next w₁ fresh =>
    obtain ⟨⟨-, unused⟩, rfl⟩ := drawFresh_eq_some.mp fresh
    split at returned
    · cases returned
    next e clash =>
      cases returned
      obtain ⟨rfl, v, member, seen, k, hk, same⟩ := insertVersioned_error clash
      refine ⟨rfl, .inr ⟨unused, rfl, .inl ⟨rfl, rfl, v, member, seen, ?_⟩⟩⟩
      simp only [providerKeys, List.mem_cons, List.not_mem_nil, or_false] at hk
      rcases hk with rfl | rfl | rfl
      · exact .inl same
      · exact .inr (.inl same)
      · exact .inr (.inr same)
    next accounts inserted =>
      cases returned
      exact ⟨rfl, .inr ⟨unused, rfl, .inr ⟨_, rfl, rfl, insertVersioned_ok inserted⟩⟩⟩

theorem exec_dateNow {res : Except AppError Nat}
    (returned : exec P i .dateNow ch w = some (res, w')) : w' = w ∧ res = .ok w.now := by
  simp only [exec] at returned
  cases returned
  exact ⟨rfl, rfl⟩

theorem exec_generateSlug {res : Except AppError Char6}
    (returned : exec P i .generateSlug ch w = some (res, w')) :
    w' = w ∧ ∃ slug, asSlug ch.draw = some slug ∧ res = .ok slug := by
  simp only [exec] at returned
  split at returned
  · cases returned
  next slug generated => cases returned; exact ⟨rfl, slug, generated, rfl⟩

theorem exec_randomUUID {res : Except AppError String}
    (returned : exec P i .randomUUID ch w = some (res, w')) :
    res = .ok ch.draw ∧ ch.draw ≠ "" ∧ ch.draw ∉ w.drawn ∧
      w' = { w with drawn := ch.draw :: w.drawn } := by
  simp only [exec] at returned
  split at returned
  · cases returned
  next fresh =>
    cases returned
    obtain ⟨⟨named, unused⟩, rfl⟩ := drawFresh_eq_some.mp fresh
    exact ⟨rfl, named, unused, rfl⟩

theorem exec_randomSecret {res : Except AppError String}
    (returned : exec P i .randomSecret ch w = some (res, w')) :
    ∃ secret, res = .ok secret ∧ isSecret secret = true ∧ secret ∉ w.drawn ∧
      w' = { w with drawn := secret :: w.drawn } := by
  simp only [exec] at returned
  split at returned
  next isBase64 =>
    split at returned
    · cases returned
    next fresh =>
      cases returned
      obtain ⟨⟨-, unused⟩, rfl⟩ := drawFresh_eq_some.mp fresh
      exact ⟨_, rfl, isBase64, unused, rfl⟩
  · cases returned

theorem exec_sign {secret : String} {payload : JwtPayload} {expiresIn : Nat}
    {res : Except AppError Jwt}
    (returned : exec P i (.sign secret payload expiresIn) ch w = some (res, w')) :
    res = .ok ⟨secret, payload, w.now / 1000, w.now / 1000 + expiresIn⟩ := by
  simp only [exec] at returned
  cases returned
  rfl

/-- A token that is signed is recorded as the server's. -/
theorem exec_sign_signed {secret : String} {payload : JwtPayload} {expiresIn : Nat}
    {res : Except AppError Jwt}
    (returned : exec P i (.sign secret payload expiresIn) ch w = some (res, w')) :
    w'.signed = ⟨secret, payload, w.now / 1000, w.now / 1000 + expiresIn⟩ :: w.signed := by
  simp only [exec] at returned
  cases returned
  rfl

theorem exec_verify_jwt {secret : String} {t : Jwt} {res : Except AppError JwtPayload}
    (returned : exec P i (.verify secret (.jwt t)) ch w = some (res, w')) :
    w' = w ∧ ((res = .ok t.payload ∧ t.secret = secret ∧ w.now / 1000 < t.exp) ∨
      (res = .error .jwtInvalid ∧ (t.secret = secret → t.exp ≤ w.now / 1000))) := by
  simp only [exec] at returned
  split at returned
  next valid => cases returned; exact ⟨rfl, .inl ⟨rfl, valid⟩⟩
  next invalid =>
    cases returned
    exact ⟨rfl, .inr ⟨rfl, fun same => Nat.not_lt.mp fun ahead => invalid ⟨same, ahead⟩⟩⟩

theorem exec_verify_other {secret s : String} {res : Except AppError JwtPayload}
    (returned : exec P i (.verify secret (.other s)) ch w = some (res, w')) :
    res = .error .jwtInvalid := by
  simp only [exec] at returned
  cases returned
  rfl

theorem exec_findLink {slug : String} {res : Except AppError (Option Link)}
    (returned : exec P i (.findLink slug) ch w = some (res, w')) :
    w' = w ∧ (res = .error .queryFailed ∨ res = .ok (w.link? slug)) := by
  simp only [exec] at returned
  split at returned <;> cases returned <;> simp

theorem exec_insertLinkWithOutbox {fields : LinkFields} {res : Except AppError Link}
    (returned : exec P i (.insertLinkWithOutbox fields) ch w = some (res, w')) :
    (w' = w ∧ ∃ e, res = .error e) ∨
      ∃ link links, res = .ok link ∧ w.links.insert? link = some links ∧
        link = ⟨fields.shortUrl, fields.originalUrl, fields.userId, w.now, fields.expiresAt⟩ ∧
        w' = { w with
          links := links
          outbox := ⟨"link_created", fields.shortUrl.1, fields.originalUrl⟩ :: w.outbox } := by
  simp only [exec] at returned
  split at returned
  next e failed => cases returned; exact .inl ⟨rfl, e, rfl⟩
  next link world inserted =>
    cases returned
    obtain ⟨links, fresh, row, after⟩ := insertLinkWithOutbox_ok inserted
    exact .inr ⟨link, links, rfl, fresh, row, after⟩

theorem exec_insertLinkWithOutbox_error {fields : LinkFields} {e : AppError}
    (returned : exec P i (.insertLinkWithOutbox fields) ch w = some (.error e, w')) :
    e = .uniqueViolation ∨ e = .queryFailed ∨ e = .entityNotFound := by
  have failed : w.insertLinkWithOutbox ch.fault fields = .error e := by
    simp only [exec] at returned
    split at returned <;> cases returned
    assumption
  simp only [World.insertLinkWithOutbox] at failed
  repeat' split at failed
  all_goals cases failed
  all_goals simp

/-- Only a link's insertion writes the outbox. -/
theorem exec_outbox {c : Cmd} {res : Except AppError c.Res}
    (returned : exec P i c ch w = some (res, w'))
    (other : ∀ fields, c ≠ .insertLinkWithOutbox fields) : w'.outbox = w.outbox := by
  cases c with
  | verify secret token =>
    cases token <;> simp only [exec] at returned <;> (repeat' split at returned) <;>
      cases returned <;> rfl
  | insertLinkWithOutbox fields => exact absurd rfl (other fields)
  | _ =>
    simp only [exec] at returned
    (repeat' split at returned) <;> cases returned <;>
      first
        | rfl
        | simp_all only [drawFresh_eq_some]

theorem exec_updateLink {slug userId originalUrl : String} {res : Except AppError Nat}
    (returned : exec P i (.updateLink slug userId originalUrl) ch w = some (res, w')) :
    (w' = w ∧ res = .error .queryFailed) ∨
      ∃ n, res = .ok n ∧ w' = { w with links := w.setOriginalUrl slug userId originalUrl } := by
  simp only [exec] at returned
  split at returned <;> cases returned
  · exact .inl ⟨rfl, rfl⟩
  · exact .inr ⟨_, rfl, rfl⟩

theorem exec_deleteLink {slug : String} {res : Except AppError Nat}
    (returned : exec P i (.deleteLink slug) ch w = some (res, w')) :
    (w' = w ∧ res = .error .queryFailed) ∨
      ∃ n, res = .ok n ∧
        w' = { w with links := w.links.delete fun l => decide (l.slugKey = bpchar slug) } := by
  simp only [exec] at returned
  split at returned <;> cases returned
  · exact .inl ⟨rfl, rfl⟩
  · exact .inr ⟨_, rfl, rfl⟩

/-- The count an UPDATE or a DELETE of links answers is zero when nothing is hit. -/
theorem hit_of_updateLink {slug userId url : String} {n : Nat}
    (returned : exec P i (.updateLink slug userId url) ch w = some (.ok n, w')) :
    n ≠ 0 ↔ ∃ r ∈ w.links.rows, r.slugKey = bpchar slug ∧ r.userId = userId := by
  simp only [exec] at returned
  split at returned <;> cases returned
  rw [Table.count, ← Nat.pos_iff_ne_zero, List.countP_pos_iff]
  simp

theorem hit_of_deleteLink {slug : String} {n : Nat}
    (returned : exec P i (.deleteLink slug) ch w = some (.ok n, w')) :
    n ≠ 0 ↔ ∃ r ∈ w.links.rows, r.slugKey = bpchar slug := by
  simp only [exec] at returned
  split at returned <;> cases returned
  rw [Table.count, ← Nat.pos_iff_ne_zero, List.countP_pos_iff]
  simp

theorem exec_findExpiredLinks {now take : Nat} {res : Except AppError (List Link)}
    (returned : exec P i (.findExpiredLinks now take) ch w = some (res, w')) :
    w' = w ∧ (res = .error .queryFailed ∨
      ∃ batch, res = .ok batch ∧ w.isExpiredBatch now take batch = true) := by
  simp only [exec] at returned
  split at returned
  · cases returned; exact ⟨rfl, .inl rfl⟩
  split at returned
  next answer => cases returned; exact ⟨rfl, .inr ⟨_, rfl, answer⟩⟩
  · cases returned

theorem exec_countLinks {userId : String} {monthStart nextMonthStart : Int}
    {res : Except AppError Nat}
    (returned : exec P i (.countLinks userId monthStart nextMonthStart) ch w = some (res, w')) :
    w' = w ∧ (res = .error .queryFailed ∨
      res = .ok (w.links.count fun l => l.createdBy userId monthStart nextMonthStart)) := by
  simp only [exec] at returned
  split at returned <;> cases returned <;> simp

theorem exec_findUserById {id : String} {res : Except AppError (Option User)}
    (returned : exec P i (.findUserById id) ch w = some (res, w')) :
    w' = w ∧ ((ch.fault ≠ none ∧ res = .error .queryFailed) ∨ res = .ok (w.userById i id)) := by
  simp only [exec] at returned
  split at returned <;> cases returned <;> simp_all [Option.isSome_iff_ne_none]

theorem exec_countKeys {userId : String} {monthStart nextMonthStart : Int}
    {res : Except AppError Nat}
    (returned : exec P i (.countKeys userId monthStart nextMonthStart) ch w = some (res, w')) :
    w' = w ∧ (res = .error .queryFailed ∨
      res = .ok (w.apiKeys.count fun k => k.createdBy userId monthStart nextMonthStart)) := by
  simp only [exec] at returned
  split at returned <;> cases returned <;> simp

theorem exec_saveApiKey {userId label keyHash keyPrefix : String} {res : Except AppError ApiKey}
    (returned : exec P i (.saveApiKey userId label keyHash keyPrefix) ch w = some (res, w')) :
    (w'.apiKeys = w.apiKeys ∧ (res = .error .queryFailed ∨
        (res = .error .uniqueViolation ∧ ∃ k ∈ w.apiKeys.rows, k.id ∉ w.drawn))) ∨
      ∃ key keys, res = .ok key ∧ w.apiKeys.insert? key = some keys ∧ w'.apiKeys = keys ∧
        key = ⟨ch.draw, userId, label, keyHash, keyPrefix, w.now, none, none⟩ ∧
        w'.drawn = ch.draw :: w.drawn := by
  simp only [exec] at returned
  split at returned
  · cases returned; exact .inl ⟨rfl, .inl rfl⟩
  split at returned
  · cases returned
  next w₁ fresh =>
    obtain ⟨⟨-, unused⟩, rfl⟩ := drawFresh_eq_some.mp fresh
    split at returned
    next taken =>
      cases returned
      obtain ⟨k, clash⟩ := Option.ne_none_iff_exists'.mp (Table.insert?_eq_none.mp taken)
      obtain ⟨member, _, key, same⟩ := Table.clash?_eq_some clash
      rw [List.mem_singleton] at key
      subst key
      exact .inl ⟨rfl, .inr ⟨rfl, k, member, by rw [same]; exact unused⟩⟩
    next keys inserted => cases returned; exact .inr ⟨_, keys, rfl, inserted, rfl, rfl, rfl⟩

theorem exec_revokeApiKey {id userId : String} {now : Nat} {res : Except AppError Nat}
    (returned : exec P i (.revokeApiKey id userId now) ch w = some (res, w')) :
    (w' = w ∧ res = .error .queryFailed) ∨
      res = .ok (w.apiKeys.count fun k =>
        decide (k.id = id) && decide (k.userId = userId) && decide (k.revokedAt = none)) ∧
      w' = { w with
        apiKeys := w.touchedKeys
          (fun k => decide (k.id = id) && decide (k.userId = userId) && decide (k.revokedAt = none))
          (fun k => { k with revokedAt := some now }) fun _ => rfl } := by
  simp only [exec] at returned
  split at returned <;> cases returned
  · exact .inl ⟨rfl, rfl⟩
  · exact .inr ⟨rfl, rfl⟩

theorem exec_findLiveApiKey {keyPrefix : String} {res : Except AppError (Option ApiKey)}
    (returned : exec P i (.findLiveApiKey keyPrefix) ch w = some (res, w')) :
    w' = w ∧ ∀ key, res = .ok (some key) → key ∈ w.apiKeys.rows ∧ key.revokedAt = none := by
  simp only [exec] at returned
  split at returned
  · cases returned
    exact ⟨rfl, fun _ failed => by cases failed⟩
  split at returned
  next k _ =>
    split at returned
    next hit =>
      cases returned
      refine ⟨rfl, fun key found => ?_⟩
      cases found
      simp only [Bool.and_eq_true, decide_eq_true_eq] at hit
      exact ⟨hit.1, hit.2.2⟩
    · cases returned
  · split at returned <;> cases returned
    exact ⟨rfl, fun _ missing => by cases missing⟩

theorem exec_listApiKeys {userId : String} {res : Except AppError (List ApiKey)}
    (returned : exec P i (.listApiKeys userId) ch w = some (res, w')) :
    w' = w ∧ (res = .error .queryFailed ∨
      res = .ok ((w.apiKeys.rows.filter fun k => decide (k.userId = userId)).mergeSort
        fun a b => decide (b.createdAt ≤ a.createdAt))) := by
  simp only [exec] at returned
  split at returned <;> cases returned <;> simp

theorem exec_touchApiKey {id : String} {now : Nat} {res : Except AppError Unit}
    (returned : exec P i (.touchApiKey id now) ch w = some (res, w')) :
    (w' = w ∧ res = .error .queryFailed) ∨
      res = .ok () ∧ w' = { w with
        apiKeys := w.touchedKeys (fun k => decide (k.id = id))
          (fun k => { k with lastUsedAt := some now }) fun _ => rfl } := by
  simp only [exec] at returned
  split at returned <;> cases returned
  · exact .inl ⟨rfl, rfl⟩
  · exact .inr ⟨rfl, rfl⟩

theorem exec_redisGet {key : String} {res : Except AppError (Option String)}
    (returned : exec P i (.redisGet key) ch w = some (res, w')) :
    w' = w ∧ ((ch.fault ≠ none ∧ res = .error .redis) ∨
      (ch.fault = none ∧ res = .ok (w.redis.get w.now key))) := by
  simp only [exec] at returned
  split at returned <;> cases returned <;> simp_all [Option.isSome_iff_ne_none]

theorem exec_redisSet {key value : String} {ex : Option Nat} {res : Except AppError Unit}
    (returned : exec P i (.redisSet key value ex) ch w = some (res, w')) :
    (ch.fault ≠ none ∧ res = .error .redis ∧ w' = w) ∨
      (ch.fault = none ∧ res = .ok () ∧
        w' = { w with redis := w.redis.set w.now key value ex }) := by
  simp only [exec] at returned
  split at returned <;> cases returned <;> simp_all [Option.isSome_iff_ne_none]

theorem exec_redisDel {key : String} {res : Except AppError Unit}
    (returned : exec P i (.redisDel key) ch w = some (res, w')) :
    (ch.fault ≠ none ∧ res = .error .redis ∧ w' = w) ∨
      (ch.fault = none ∧ res = .ok () ∧ w' = { w with redis := w.redis.del key }) := by
  simp only [exec] at returned
  split at returned <;> cases returned <;> simp_all [Option.isSome_iff_ne_none]

theorem exec_redisGetDel {key : String} {res : Except AppError (Option String)}
    (returned : exec P i (.redisGetDel key) ch w = some (res, w')) :
    (ch.fault ≠ none ∧ res = .error .redis ∧ w' = w) ∨
      (ch.fault = none ∧ res = .ok (w.redis.get w.now key) ∧
        w' = { w with redis := w.redis.del key }) := by
  simp only [exec] at returned
  split at returned <;> cases returned <;> simp_all [Option.isSome_iff_ne_none]

theorem exec_randomState {res : Except AppError String}
    (returned : exec P i .randomState ch w = some (res, w')) :
    res = .ok ch.draw ∧ isHexToken ch.draw = true ∧ ch.draw ∉ w.drawn ∧
      w' = { w with drawn := ch.draw :: w.drawn } := by
  simp only [exec] at returned
  split at returned
  next hex =>
    split at returned
    · cases returned
    next fresh =>
      cases returned
      obtain ⟨⟨-, unused⟩, rfl⟩ := drawFresh_eq_some.mp fresh
      exact ⟨rfl, hex, unused, rfl⟩
  · cases returned

end Mikrouli
