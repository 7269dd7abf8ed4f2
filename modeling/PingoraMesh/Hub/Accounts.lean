import PingoraMesh.Hub.Nodes

/-!
# Administrators

The requests of `HubService` on administrator accounts and sessions. Password hashes are `Argon2`, session tokens are
kept by their SHA-256; both functions come from the platform.
-/

namespace PingoraMesh

open Calls Fallible

/-- `ADMIN_SESSION_TTL_HOURS`. -/
def adminSessionTtlHours : Int := 8

/-- `normalize_admin_username`. -/
def normalizeAdminUsername (raw : String) : Except AppError String :=
  let name := Text.toAsciiLowercase (Text.trim raw)
  if Text.isEmpty name then .error (.badRequest "username is required") else .ok name

/-- `normalize_admin_display_name`. -/
def normalizeAdminDisplayName (raw : String) : String :=
  if Text.isEmpty (Text.trim raw) then "Administrator" else Text.trim raw

/-- `verify_password`. -/
def verifyPassword (p : Platform) (passwordHash raw : String) : Except AppError Unit :=
  match p.argon2Verify passwordHash raw with
  | .error message => .error (.internal message)
  | .ok false => .error (.unauthorized "invalid username or password")
  | .ok true => .ok ()

namespace HubService

variable (p : Platform)

/-- `hash_password`: the length is counted in bytes. -/
def hashPassword (raw : String) : HubM String := do
  ensure (!decide (raw.utf8ByteSize < 6)) (.badRequest "password must contain at least 6 characters")
  let hash ← repo (.argon2Hash raw)
  attempt (internalError hash)

/-- `ensure_admin_user`. -/
def ensureAdminUser (username displayName rawPassword : String) : HubM Bool := do
  let name ← attempt (normalizeAdminUsername username)
  let existing ← repo (.adminUserByUsername name)
  let created ← onlyIf existing.isNone do
    let userId ← repo .newUuid
    let passwordHash ← hashPassword rawPassword
    let now ← repo .utcNow
    repo (.saveAdminUser {
      userId := userId
      username := name
      displayName := normalizeAdminDisplayName displayName
      passwordHash := passwordHash
      status := "active"
      lastLoginAt := none
      createdAt := now })
  return created.isSome

/-- `login_admin`. -/
def loginAdmin (request : AdminLoginRequest) : HubM (AdminSessionInfo × String) := do
  let username ← attempt (normalizeAdminUsername request.username)
  ensure (!Text.isEmpty request.password) (.badRequest "password is required")
  let user ← okOr (← repo (.adminUserByUsername username)) (.unauthorized "invalid username or password")
  ensure (user.status == "active") (.unauthorized "admin account is disabled")
  attempt (verifyPassword p user.passwordHash request.password)
  let first ← repo .newUuid
  let second ← repo .newUuid
  let token := "adm_" ++ Uuid.simple first ++ Uuid.simple second
  let sessionId ← repo .newUuid
  let expires ← repo .utcNow
  let created ← repo .utcNow
  let seen ← repo .utcNow
  let session : AdminSessionRecord := {
    sessionId := sessionId
    userId := user.userId
    sessionTokenHash := hashToken p token
    expiresAt := expires + DateTime.hours adminSessionTtlHours
    createdAt := created
    lastSeenAt := seen }
  repo (.saveAdminSession session)
  let login ← repo .utcNow
  repo (.touchAdminUserLogin user.userId login)
  return ({
    userId := user.userId
    username := user.username
    displayName := user.displayName
    expiresAt := session.expiresAt }, token)

/-- `authorize_admin_session`, with `validate_admin_session`; also `current_admin`. -/
def authorizeAdminSession (sessionToken : String) : HubM AdminSessionInfo := do
  ensure (!Text.isEmpty (Text.trim sessionToken)) (.unauthorized "missing admin session")
  let hash := hashToken p sessionToken
  let session ← okOr (← repo (.adminSessionByTokenHash hash)) (.unauthorized "invalid admin session")
  ensure (session.status == "active") (.unauthorized "admin account is disabled")
  let now ← repo .utcNow
  ensure (!decide (session.expiresAt < now)) (.unauthorized "admin session expired")
  let seen ← repo .utcNow
  repo (.touchAdminSession hash seen)
  return {
    userId := session.userId
    username := session.username
    displayName := session.displayName
    expiresAt := session.expiresAt }

/-- `change_admin_password`. -/
def changeAdminPassword (sessionToken : String) (request : ChangeAdminPasswordRequest) :
    HubM ChangeAdminPasswordResponse := do
  let session ← authorizeAdminSession p sessionToken
  ensure (!Text.isEmpty request.currentPassword) (.badRequest "current_password is required")
  ensure (!Text.isEmpty request.newPassword) (.badRequest "new_password is required")
  ensure (request.currentPassword != request.newPassword)
    (.badRequest "new password must be different from current password")
  let user ← okOr (← repo (.adminUserByUsername session.username)) (.unauthorized "admin account not found")
  ensure (user.status == "active") (.unauthorized "admin account is disabled")
  attempt (verifyPassword p user.passwordHash request.currentPassword)
  let passwordHash ← hashPassword request.newPassword
  repo (.saveAdminUser { user with passwordHash := passwordHash })
  repo (.deleteAdminSessionsForUser user.userId (some (hashToken p sessionToken)))
  return { userId := user.userId, username := user.username, changed := true }

/-- `logout_admin`. -/
def logoutAdmin (sessionToken : String) : HubM Unit :=
  discard (onlyIf (!Text.isEmpty (Text.trim sessionToken)) (repo (.deleteAdminSession (hashToken p sessionToken))))

end HubService

end PingoraMesh
