import Mikrouli.Model.Users

/-! The shared Guest row: `migrations/1700000000006-SeedGuestUser.ts` and
`UsersService.getGuestUserId`. -/

namespace Mikrouli

open Async Store

/-- `INSERT … ON CONFLICT (email) DO NOTHING`, with the id it generates. -/
def World.seedGuestUser (id : String) (w : World) : Option World :=
  -- whoever owns the row with that email is taken for the Guest from now on
  if w.users.rows.any fun v => decide (v.row.email = GUEST_SENTINEL_EMAIL) then some w
  else
    match w.drawFresh id with
    | none => none
    | some w' =>
      (w.users.insert? ⟨⟨id, GUEST_SENTINEL_EMAIL, none, none, none, w.now⟩, none⟩).map fun users =>
        { w' with users := users }

/-- The id is cached for the lifetime of the process. -/
def UsersService.getGuestUserId (guestUserId : Option String) : Prog String :=
  match guestUserId with
  | some id => pure id
  | none => do
    match ← await (.findUserByEmail GUEST_SENTINEL_EMAIL) with
    | some guest => pure guest.id
    | none =>
      throw (AppError.notFound "Guest identity row is missing — run the SeedGuestUser migration")

end Mikrouli
