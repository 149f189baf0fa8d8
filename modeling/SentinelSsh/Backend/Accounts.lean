import SentinelSsh.Backend.Requests
import SentinelSsh.Lib.Runs

/-!
# Accounts

`create_user` of `auth/security.py`, which the entrypoint of the container and `scripts/create_user.py`
call, and the table of users it writes to. Afterwards the operator may switch accounts on and off.
-/

namespace SentinelSsh.Backend

/-! ## The table -/

/-- The table of users with its sequence of keys. Names are unique by a constraint of the table. -/
structure UserTable where
  users : List User
  nextUser : Nat
  names_nodup : (users.map (·.username)).Nodup
  keys_nodup : (users.map (·.id)).Nodup
  keys_lt : ∀ user ∈ users, user.id < nextUser

/-- A table without users. -/
def UserTable.empty : UserTable where
  users := []
  nextUser := 1
  names_nodup := List.nodup_nil
  keys_nodup := List.nodup_nil
  keys_lt := fun _ hmem => absurd hmem List.not_mem_nil

/-- What a `VARCHAR(n)` column makes of a value; `none` if the statement raises. PostgreSQL cuts spaces
off that do not fit. -/
def Dialect.varchar : Dialect → Nat → String → Option String
  | .sqlite, _, s => some s
  | .postgresql _, n, s =>
    if (s.toList.drop n).all (· = ' ') then some (String.ofList (s.toList.take n)) else none

/-- The row a new user gets. -/
def UserTable.newRow (t : UserTable) (username passwordHash : String) : User where
  id := t.nextUser
  username := username
  passwordHash := passwordHash

theorem UserTable.nextUser_not_mem (t : UserTable) : t.nextUser ∉ t.users.map (·.id) := by
  intro hmem
  obtain ⟨user, huser, hid⟩ := List.mem_map.mp hmem
  exact (t.keys_lt user huser).ne hid

/-- The `INSERT` of a user, which raises if the name is taken. -/
def UserTable.insert (t : UserTable) (username passwordHash : String) : Option UserTable :=
  if h : username ∈ t.users.map (·.username) then none
  else
    some
      { users := t.users ++ [t.newRow username passwordHash]
        nextUser := t.nextUser + 1
        names_nodup := by
          rw [List.map_append]
          exact List.nodup_append_comm.mp (List.nodup_cons.mpr ⟨h, t.names_nodup⟩)
        keys_nodup := by
          rw [List.map_append]
          exact List.nodup_append_comm.mp (List.nodup_cons.mpr ⟨t.nextUser_not_mem, t.keys_nodup⟩)
        keys_lt := by
          intro user hmem
          rcases List.mem_append.mp hmem with hmem | hmem
          · exact Nat.lt_succ_of_lt (t.keys_lt user hmem)
          · rw [List.mem_singleton.mp hmem]
            exact Nat.lt_succ_self _ }

/-- The account `id` is switched on or off. -/
def User.setActive (id : Nat) (isActive : Bool) (user : User) : User :=
  if user.id = id then { user with isActive := isActive } else user

section

variable (id : Nat) (isActive : Bool) (user : User)

@[simp] theorem User.setActive_id : (user.setActive id isActive).id = user.id := by
  unfold setActive
  split <;> rfl

@[simp] theorem User.setActive_username : (user.setActive id isActive).username = user.username := by
  unfold setActive
  split <;> rfl

@[simp] theorem User.setActive_passwordHash :
    (user.setActive id isActive).passwordHash = user.passwordHash := by
  unfold setActive
  split <;> rfl

end

/-- The `UPDATE` of `is_active`. -/
def UserTable.setActive (t : UserTable) (id : Nat) (isActive : Bool) : UserTable where
  users := t.users.map (User.setActive id isActive)
  nextUser := t.nextUser
  names_nodup := by
    have hnames : (·.username) ∘ User.setActive id isActive = (·.username) :=
      funext fun user => User.setActive_username id isActive user
    rw [List.map_map, hnames]
    exact t.names_nodup
  keys_nodup := by
    have hkeys : (·.id) ∘ User.setActive id isActive = (·.id) :=
      funext fun user => User.setActive_id id isActive user
    rw [List.map_map, hkeys]
    exact t.keys_nodup
  keys_lt := by
    intro user hmem
    obtain ⟨u, hu, rfl⟩ := List.mem_map.mp hmem
    rw [User.setActive_id]
    exact t.keys_lt u hu

end SentinelSsh.Backend

namespace SentinelSsh.Backend.Api

open Python SentinelSsh.Core

/-! ## Creation -/

variable (d : Deployment) (generatePasswordHash : String → String → String)

/-- The `INSERT` of `create_user`, with the key of the new row. The hash fits into its column. -/
def addUser (t : UserTable) (name passwordHash role : String) : Except Failure (UserTable × Nat) := do
  d.driver.execute (textParams [name, passwordHash, role])
  match d.dialect.varchar 64 name, d.dialect.varchar 32 role with
  | some stored, some _ =>
    match t.insert stored passwordHash with
    | some t' => return (t', t.nextUser)
    | none => .error (.unexpected .driverError)
  | _, _ => .error (.unexpected .driverError)

/-- `create_user`; the salt is what `generate_password_hash` chooses. -/
def createUser (t : UserTable) (salt : String) (username password : List CodePoint) (role : String) :
    Except Failure (UserTable × Nat) :=
  match encode username with
  | none => .error (.unexpected .unicodeEncodeError)
  | some name => do
    d.driver.execute (textParams [name])
    if t.users.any (·.username = name) then .error (.unexpected .valueError)
    else
      match encode password with
      | none => .error (.unexpected .unicodeEncodeError)
      | some plain => addUser d t name (generatePasswordHash salt plain) role

/-- What happens to the table of users. -/
inductive AccountEvent where
  | create (salt : String) (username password : List CodePoint) (role : String)
  | setActive (id : Nat) (isActive : Bool)

/-- One step of the table: a creation that succeeds, or a switch. -/
def accountStep (t : UserTable) : AccountEvent → Option UserTable
  | .create salt username password role =>
    (createUser d generatePasswordHash t salt username password role).toOption.map (·.1)
  | .setActive id isActive => some (t.setActive id isActive)

/-! ## Logging in -/

/-- The body of a login with these credentials. -/
def loginBody (username password : List CodePoint) : Json.Loaded :=
  .dict [(points "username", .str username), (points "password", .str password)]

/-- The deployment with this table of users. -/
def Deployment.withUsers (t : UserTable) : Deployment :=
  { d with users := t.users }

/-- The login with these credentials succeeds, and it is the account `id` that is logged in. -/
def LogsIn (s : Store) (cookies : Cookies) (t : UserTable) (username password : List CodePoint)
    (id : Nat) : Prop :=
  ∃ name, respond (d.withUsers t) s cookies (.login (.json (loginBody username password))) =
    { status := 200, envelope := .success (.user id name) }

/-- `check_password_hash` recognises the password of a generated hash, and no other one. -/
def ChecksGenerated : Prop :=
  ∀ salt plain password text, encode password = some text →
    d.checkPasswordHash (generatePasswordHash salt plain) (.str password) = some (decide (plain = text))

/-- Neither the name nor the password is empty, and the name is stored as the login reads it: stripped. -/
structure Admissible (username password : List CodePoint) : Prop where
  username_ne : stripPoints username ≠ []
  password_ne : password ≠ []
  stripped : encode (stripPoints username) = (encode username).bind (d.dialect.varchar 64)

end SentinelSsh.Backend.Api
