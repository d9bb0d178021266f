import Mikrouli.Lib.History
import Mikrouli.Lib.Sequential
import Mikrouli.Model.ApiKeys
import Mikrouli.Model.Auth
import Mikrouli.Model.Links

/-! The API as one service: its requests, the program that answers each, and its clock. -/

namespace Mikrouli

open Async

inductive Req where
  | register (email password : String)
  | validateCredentials (email password : String)
  | login (email password : String)
  | findOrCreateFromProvider (identity : GithubIdentity)
  | loginWithGithub (identity : GithubIdentity)
  | rotateRefresh (token : Token)
  | revokeRefresh (token : Token)
  | createLink (user : LinksController.RequestUser) (url : String) (expiresAt : Option (Option Int))
  /-- the MCP tool `create_short_link`, which does not touch the link cache -/
  | createShortLink (userId url : String) (expiresAt : Option (Option Int))
  | updateLink (userId slug url : String)
  | removeLink (userId slug : String)
  | resolve (slug : String)
  | cleanup
  | createKey (userId label : String)
  | revokeKey (userId id : String)
  | validateKey (plaintext : String)
  | listKeys (userId : String)
  deriving DecidableEq, Repr

inductive Ans where
  | registered (user : PublicUser)
  | validated (user : Option User)
  | account (user : User)
  | issued (tokens : IssuedTokens)
  | noContent
  | link (link : PublicLink)
  | resolution (resolution : RedirectResolution)
  | cleaned (count : Nat)
  | key (key : CreatedApiKey)
  | owner (userId : Option String)
  | keys (keys : List ApiKeySummary)
  deriving DecidableEq, Repr

variable (P : Platform)

def serve : Req → Prog Ans
  | .register email password => Ans.registered <$> AuthService.register email password
  | .validateCredentials email password =>
    Ans.validated <$> AuthService.validateCredentials P email password
  | .login email password => Ans.issued <$> AuthController.login P email password
  | .findOrCreateFromProvider identity =>
    Ans.account <$> UsersService.findOrCreateFromProvider identity
  | .loginWithGithub identity => Ans.issued <$> AuthService.loginWithGithub P identity
  | .rotateRefresh token => Ans.issued <$> AuthService.rotateRefresh P token
  | .revokeRefresh token => (fun _ => Ans.noContent) <$> AuthService.revokeRefresh P token
  | .createLink user url expiresAt => Ans.link <$> LinksController.create P user url expiresAt
  | .createShortLink userId url expiresAt => do
    let link ← LinksService.create P url userId expiresAt
    pure (.link (toPublicLinkSchema link))
  | .updateLink userId slug url => Ans.link <$> LinksController.update userId slug url
  | .removeLink userId slug => (fun _ => Ans.noContent) <$> LinksController.remove userId slug
  | .resolve slug => Ans.resolution <$> RedirectService.resolve P slug
  | .cleanup => Ans.cleaned <$> CleanupService.handleCleanup
  | .createKey userId label => Ans.key <$> ApiKeysService.createForUser P userId label
  | .revokeKey userId id => (fun _ => Ans.noContent) <$> ApiKeysService.revoke userId id
  | .validateKey plaintext => Ans.owner <$> ApiKeysService.validate P plaintext
  | .listKeys userId => Ans.keys <$> ApiKeysService.listForUser userId

/-- Requests run in threads of their own; the environment only lets the clock advance. -/
abbrev mikrouli : Service api where
  toMachine := machine P
  Req := Req
  Ans := Ans
  prog := serve P
  Env := Nat
  tick := World.advance

/-- The events of one thread, newest first. -/
abbrev Events (P : Platform) := List (Event (mikrouli P))

variable {P}

/-- One command, and what its answer may be. -/
theorem await_along {φ : Events P → Cmd → Prop} {es : Events P} {c : Cmd}
    {ψ : Events P → Except AppError c.Res → Prop} (pre : φ es c)
    (post : ∀ res i ch w w', exec P i c ch w = some (res, w') → ψ (.call c res :: es) res) :
    Along φ ψ (await c) es := by
  apply Along.perform pre
  rintro res ⟨i, ch, w, w', returned⟩
  exact post res i ch w w' returned

end Mikrouli
