import SentinelSsh.Backend.Accounts
import SentinelSsh.Backend.Proofs.RequestProofs

/-!
# Which accounts can log in

`create_user` stores the name as it is given, `login` strips the name it is given and refuses an empty
name or password.
-/

namespace SentinelSsh.Backend

/-! ## The table -/

namespace UserTable

variable {t t' : UserTable} {id : Nat} {username hash : String}

/-- The row with this key has this name and this hash. -/
def Holds (t : UserTable) (id : Nat) (username passwordHash : String) : Prop :=
  ∃ user ∈ t.users, user.id = id ∧ user.username = username ∧ user.passwordHash = passwordHash

theorem users_of_insert (hinsert : t.insert username hash = some t') :
    t'.users = t.users ++ [t.newRow username hash] := by
  unfold insert at hinsert
  split at hinsert
  · cases hinsert
  · cases hinsert
    rfl

theorem holds_of_insert (hinsert : t.insert username hash = some t') : t'.Holds t.nextUser username hash := by
  refine ⟨t.newRow username hash, ?_, rfl, rfl, rfl⟩
  rw [users_of_insert hinsert]
  exact List.mem_append_right _ (List.mem_singleton_self _)

theorem Holds.insert (h : t.Holds id username hash) {username' hash' : String}
    (hinsert : t.insert username' hash' = some t') : t'.Holds id username hash := by
  obtain ⟨user, hmem, hrow⟩ := h
  refine ⟨user, ?_, hrow⟩
  rw [users_of_insert hinsert]
  exact List.mem_append_left _ hmem

theorem Holds.setActive (h : t.Holds id username hash) (id' : Nat) (isActive : Bool) :
    (t.setActive id' isActive).Holds id username hash := by
  obtain ⟨user, hmem, hid, hname, hhash⟩ := h
  refine ⟨user.setActive id' isActive, List.mem_map_of_mem hmem, ?_, ?_, ?_⟩
  · rw [User.setActive_id, hid]
  · rw [User.setActive_username, hname]
  · rw [User.setActive_passwordHash, hhash]

/-- The row of a key is the row of its name. -/
theorem Holds.username_eq (h : t.Holds id username hash) {user : User} (hmem : user ∈ t.users)
    (hid : user.id = id) : user.username = username ∧ user.passwordHash = hash := by
  obtain ⟨row, hrow, hkey, hname, hhash⟩ := h
  obtain rfl := List.inj_on_of_nodup_map t.keys_nodup hmem hrow (hid.trans hkey.symm)
  exact ⟨hname, hhash⟩

/-- A user is found under his name. -/
theorem find?_eq_some {user : User} (hmem : user ∈ t.users) :
    t.users.find? (·.username = user.username) = some user := by
  cases hfind : t.users.find? (·.username = user.username) with
  | none =>
    have hnone := List.find?_eq_none.mp hfind user hmem
    exact absurd (decide_eq_true rfl) hnone
  | some other =>
    have hname : other.username = user.username := by simpa using List.find?_some hfind
    rw [List.inj_on_of_nodup_map t.names_nodup (List.mem_of_find?_eq_some hfind) hmem hname]

end UserTable

end SentinelSsh.Backend

namespace SentinelSsh.Backend.Api

open Python SentinelSsh.Core Escapes

variable {d : Deployment} {gen : String → String → String}

/-! ## Creation -/

/-- A driver that takes a text takes its beginnings. -/
theorem takesText_take {driver : Driver} (hdriver : driver = .sqlite ∨ driver = .psycopg2) {s : String}
    (n : Nat) (hs : driver.takesText s = true) :
    driver.takesText (String.ofList (s.toList.take n)) = true := by
  rcases hdriver with rfl | rfl
  · rfl
  · unfold Driver.psycopg2 at hs ⊢
    simp only [List.contains_eq_mem, Bool.not_eq_true', decide_eq_false_iff_not,
      String.toList_ofList] at hs ⊢
    exact fun hmem => hs (List.mem_of_mem_take hmem)

theorem takesText_varchar {driver : Driver} (hdriver : driver = .sqlite ∨ driver = .psycopg2)
    {dialect : Dialect} {n : Nat} {s stored : String} (hstored : dialect.varchar n s = some stored)
    (hs : driver.takesText s = true) : driver.takesText stored = true := by
  unfold Dialect.varchar at hstored
  split at hstored
  · cases hstored
    exact hs
  · split at hstored
    · cases hstored
      exact takesText_take hdriver n hs
    · cases hstored

theorem addUser_eq_ok {t t' : UserTable} {name hash role : String} {id : Nat}
    (h : addUser d t name hash role = .ok (t', id)) :
    ∃ stored, d.dialect.varchar 64 name = some stored ∧ t.insert stored hash = some t' ∧ id = t.nextUser := by
  unfold addUser at h
  obtain ⟨_, _, h⟩ := bind_eq_ok.mp h
  split at h
  · rename_i stored _ hstored _
    split at h
    · rename_i t'' hinsert
      cases h
      exact ⟨stored, hstored, hinsert, rfl⟩
    · cases h
  · cases h

/-- What a creation that succeeds has checked, and the row it adds. -/
theorem createUser_eq_ok {t t' : UserTable} {salt role : String} {username password : List CodePoint}
    {id : Nat} (h : createUser d gen t salt username password role = .ok (t', id)) :
    ∃ name plain stored, encode username = some name ∧ encode password = some plain ∧
      d.driver.takesText name = true ∧ d.dialect.varchar 64 name = some stored ∧
        t.insert stored (gen salt plain) = some t' ∧ id = t.nextUser := by
  unfold createUser at h
  split at h
  · cases h
  · rename_i name hname
    obtain ⟨_, hexecute, h⟩ := bind_eq_ok.mp h
    split at h
    · cases h
    · split at h
      · cases h
      · rename_i plain hplain
        obtain ⟨stored, hadded⟩ := addUser_eq_ok h
        exact ⟨name, plain, stored, hname, hplain, execute_text.mp hexecute, hadded⟩

/-! ## The table afterwards -/

/-- A row keeps its key, its name and its hash. -/
theorem holds_step {id : Nat} {username hash : String} (t : UserTable) (event : AccountEvent)
    (t' : UserTable) (h : t.Holds id username hash) (hstep : accountStep d gen t event = some t') :
    t'.Holds id username hash := by
  cases event with
  | setActive id' isActive =>
    cases hstep
    exact h.setActive id' isActive
  | create salt name password role =>
    obtain ⟨⟨t'', id'⟩, hcreate, rfl⟩ := Option.map_eq_some_iff.mp hstep
    obtain ⟨_, _, _, _, _, _, _, hinsert, _⟩ := createUser_eq_ok (toOption_eq_some hcreate)
    exact h.insert hinsert

/-- The row of an account that was created, at the end of a run. -/
theorem holds_run {t t₁ t₂ : UserTable} {salt role : String} {username password : List CodePoint} {id : Nat}
    (hcreate : createUser d gen t salt username password role = .ok (t₁, id)) {events : List AccountEvent}
    (hrun : Runs.run (accountStep d gen) t₁ events = some t₂) :
    ∃ name plain stored, encode username = some name ∧ encode password = some plain ∧
      d.driver.takesText name = true ∧ d.dialect.varchar 64 name = some stored ∧
        t₂.Holds id stored (gen salt plain) := by
  obtain ⟨name, plain, stored, hname, hplain, htakes, hstored, hinsert, rfl⟩ := createUser_eq_ok hcreate
  have hholds := Runs.run_invariant holds_step (UserTable.holds_of_insert hinsert) hrun
  exact ⟨name, plain, stored, hname, hplain, htakes, hstored, hholds⟩

/-! ## Login -/

theorem checkUser_eq_some_iff {name : String} {password : Json.Loaded} {user : User} :
    checkUser d name password = .ok (some user) ↔ d.users.find? (·.username = name) = some user ∧
      user.isActive = true ∧ d.checkPasswordHash user.passwordHash password = some true := by
  unfold checkUser
  cases d.users.find? (·.username = name) with
  | none => exact iff_of_false (fun h => nomatch h) fun h => nomatch h.1
  | some other =>
    dsimp only
    constructor
    · intro h
      split at h
      · cases h
      · rename_i hactive
        split at h
        · cases h
        · rename_i hcheck
          cases h
          exact ⟨rfl, not_not.mp hactive, hcheck⟩
        · cases h
    · rintro ⟨hother, hactive, hcheck⟩
      cases hother
      rw [if_neg (not_not.mpr hactive), hcheck]

/-- The account whose name and password these are, when it is switched on. -/
theorem authenticate_eq_some_iff {username : List CodePoint} {password : Json.Loaded} {user : User} :
    authenticate d username password = .ok (some user) ↔ ∃ name, encode username = some name ∧
      d.driver.takesText name = true ∧ d.users.find? (·.username = name) = some user ∧
        user.isActive = true ∧ d.checkPasswordHash user.passwordHash password = some true := by
  unfold authenticate
  cases hname : encode username with
  | none => exact iff_of_false (fun h => nomatch h) fun ⟨name, h, _⟩ => nomatch h
  | some name =>
    dsimp only
    rw [bind_eq_ok]
    constructor
    · rintro ⟨u, hexecute, hcheck⟩
      exact ⟨name, rfl, execute_text.mp hexecute, checkUser_eq_some_iff.mp hcheck⟩
    · rintro ⟨name', hname', htakes, hcheck⟩
      cases hname'
      exact ⟨(), execute_text.mpr htakes, checkUser_eq_some_iff.mpr hcheck⟩

theorem logIn_eq_ok {username : List CodePoint} {password : Json.Loaded} {id : Nat} {name : String} :
    logIn d username password = .ok (.user id name) ↔ username ≠ [] ∧ password.truthy = true ∧
      ∃ user, authenticate d username password = .ok (some user) ∧ user.id = id ∧ user.username = name := by
  unfold logIn
  split
  · rename_i hmissing
    refine iff_of_false (fun h => nomatch h) fun ⟨husername, hpassword, _⟩ => ?_
    rcases hmissing with hmissing | hmissing
    · exact husername hmissing
    · exact Bool.false_ne_true (hmissing.symm.trans hpassword)
  · rename_i hgiven
    obtain ⟨husername, hpassword⟩ := not_or.mp hgiven
    rw [bind_eq_ok]
    constructor
    · rintro ⟨result, hresult, h⟩
      cases result with
      | none => cases h
      | some user =>
        cases h
        exact ⟨husername, Bool.not_eq_false _ ▸ hpassword, user, hresult, rfl, rfl⟩
    · rintro ⟨-, -, user, hresult, rfl, rfl⟩
      exact ⟨some user, hresult, rfl⟩

theorem login_loginBody (hdepth : 1 ≤ d.recursionLimit) (username password : List CodePoint) :
    login d (.json (loginBody username password)) = logIn d (stripPoints username) (.str password) := by
  have hget : getJson d (.json (loginBody username password)) = .ok (loginBody username password) :=
    if_neg (Nat.not_lt.mpr hdepth)
  have husername : get "username" (loginBody username password) = .ok (.str username) := by
    simp [get, loginBody, Json.Loaded.lookup, encode_points]
  have hpassword : get "password" (loginBody username password) = .ok (.str password) := by
    simp [get, loginBody, Json.Loaded.lookup, encode_points]
  have hor : ∀ text, (Json.Loaded.str text).orElse (.str []) = .str text := by
    intro text
    cases text <;> rfl
  have hbody : (loginBody username password).orElse (.dict []) = loginBody username password := rfl
  simp only [login, hget, hbody, husername, hpassword, hor, stripValue, bind, Except.bind]

/-- The guard lets everybody log in. -/
theorem requireAuth_login (config : AppConfig) (users : List User) (cookies : Cookies) :
    requireAuth config users cookies "/api/auth/login" = false := by
  have hexempt : ∃ p ∈ authExempt, p.toList <+: "/api/auth/login".toList := by decide
  unfold requireAuth
  rw [if_pos hexempt, ite_self, ite_self]

/-- A login is answered with an account if `login` returns it. -/
theorem logsIn_iff {s : Store} {cookies : Cookies} {t : UserTable} {username password : List CodePoint}
    {id : Nat} : LogsIn d s cookies t username password id ↔
      ∃ name, login (d.withUsers t) (.json (loginBody username password)) = .ok (.user id name) := by
  unfold LogsIn respond
  refine exists_congr fun name => ?_
  simp only [routed, Request.path, requireAuth_login, Bool.false_eq_true, if_false, view]
  cases login (d.withUsers t) (.json (loginBody username password)) with
  | error e =>
    refine iff_of_false (fun h => ?_) (fun h => nomatch h)
    cases e <;> cases congrArg Response.envelope h
  | ok data =>
    refine ⟨fun h => ?_, fun h => ?_⟩
    · cases h
      rfl
    · cases h
      rfl

/-- Logging in as the account `id`, which holds this name and the hash of this password. -/
theorem logsIn_iff_of_holds (hdepth : 1 ≤ d.recursionLimit) {s : Store} {cookies : Cookies} {t : UserTable}
    {stored hash : String} {id : Nat} (hholds : t.Holds id stored hash)
    (hactive : ∃ user ∈ t.users, user.id = id ∧ user.isActive = true) (htakes : d.driver.takesText stored = true)
    {username password : List CodePoint} (hcheck : d.checkPasswordHash hash (.str password) = some true) :
    LogsIn d s cookies t username password id ↔
      stripPoints username ≠ [] ∧ password ≠ [] ∧ encode (stripPoints username) = some stored := by
  have htruthy : (Json.Loaded.str password).truthy = true ↔ password ≠ [] := by
    simp [Json.Loaded.truthy]
  rw [logsIn_iff]
  constructor
  · rintro ⟨name, h⟩
    rw [login_loginBody (d := d.withUsers t) hdepth] at h
    obtain ⟨husername, hpassword, user, hauth, rfl, rfl⟩ := logIn_eq_ok.mp h
    obtain ⟨text, htext, -, hfind, -, -⟩ := authenticate_eq_some_iff.mp hauth
    have hname : user.username = text := by simpa using List.find?_some hfind
    have hrow := hholds.username_eq (List.mem_of_find?_eq_some hfind) rfl
    refine ⟨husername, htruthy.mp hpassword, ?_⟩
    rw [htext, ← hname, hrow.1]
  · rintro ⟨husername, hpassword, hstored⟩
    obtain ⟨user, hmem, hid, hon⟩ := hactive
    obtain ⟨rfl, rfl⟩ := hholds.username_eq hmem hid
    refine ⟨user.username, ?_⟩
    rw [login_loginBody (d := d.withUsers t) hdepth]
    have hauth : authenticate (d.withUsers t) (stripPoints username) (.str password) = .ok (some user) :=
      authenticate_eq_some_iff.mpr
        ⟨user.username, hstored, htakes, UserTable.find?_eq_some hmem, hon, hcheck⟩
    exact logIn_eq_ok.mpr ⟨husername, htruthy.mpr hpassword, user, hauth, hid, rfl⟩

/-! ## Created accounts -/

/-- An account that was created can log in with the name and the password it was created with, whatever
happened to the table since, if it is still switched on and the two are admissible. -/
theorem login_created_iff {d : Deployment} {gen : String → String → String}
    (hwerkzeug : ChecksGenerated d gen) (hdepth : 1 ≤ d.recursionLimit)
    (hdriver : d.driver = .sqlite ∨ d.driver = .psycopg2) {t t₁ t₂ : UserTable} {salt role : String}
    {username password : List CodePoint} {id : Nat}
    (hcreate : createUser d gen t salt username password role = .ok (t₁, id)) {events : List AccountEvent}
    (hrun : Runs.run (accountStep d gen) t₁ events = some t₂)
    (hactive : ∃ user ∈ t₂.users, user.id = id ∧ user.isActive = true) (s : Store) (cookies : Cookies) :
    LogsIn d s cookies t₂ username password id ↔ Admissible d username password := by
  obtain ⟨name, plain, stored, hname, hplain, htakes, hstored, hholds⟩ := holds_run hcreate hrun
  have hcheck : d.checkPasswordHash (gen salt plain) (.str password) = some true := by
    rw [hwerkzeug salt plain password plain hplain, decide_eq_true rfl]
  rw [logsIn_iff_of_holds hdepth hholds hactive (takesText_varchar hdriver hstored htakes) hcheck]
  have hbind : (encode username).bind (d.dialect.varchar 64) = some stored := by
    rw [hname, Option.bind_some, hstored]
  constructor
  · rintro ⟨husername, hpassword, hstripped⟩
    exact ⟨husername, hpassword, hstripped.trans hbind.symm⟩
  · rintro ⟨husername, hpassword, hstripped⟩
    exact ⟨husername, hpassword, hstripped.trans hbind⟩

/-- The hash of a password is the password. -/
theorem checksGenerated_oneUser : ChecksGenerated .oneUser fun _ plain => plain := by
  intro salt plain password text htext
  simp only [Deployment.oneUser, htext, Option.map_some, Option.some.injEq, decide_eq_decide]
  exact eq_comm

/-- What the entrypoint makes of a table without users. -/
def provisioned (username : String) : UserTable where
  users := [{ id := 1, username := username, passwordHash := "sentinel123" }]
  nextUser := 2
  names_nodup := List.nodup_singleton _
  keys_nodup := List.nodup_singleton _
  keys_lt := by
    intro user hmem
    rw [List.mem_singleton.mp hmem]
    exact Nat.lt_succ_self 1

/-- `ADMIN_USERNAME=admin` and `ADMIN_PASSWORD=sentinel123`, the account switched off and on again. -/
theorem login_created_iff_admin :
    LogsIn .oneUser .oneAttack {} (provisioned "admin") (points "admin") (points "sentinel123") 1 ↔
      Admissible .oneUser (points "admin") (points "sentinel123") := by
  have hcreate : createUser .oneUser (fun _ plain => plain) .empty "" (points "admin") (points "sentinel123")
      "admin" = .ok (provisioned "admin", 1) := rfl
  have hrun : Runs.run (accountStep .oneUser fun _ plain => plain) (provisioned "admin")
      [.setActive 1 false, .setActive 1 true] = some (provisioned "admin") := rfl
  exact login_created_iff checksGenerated_oneUser (by decide) (Or.inl rfl) hcreate hrun (by decide)
    .oneAttack {}

/-- `ADMIN_USERNAME="admin "` -/
theorem not_logsIn_trailing_space :
    ChecksGenerated .oneUser (fun _ plain => plain) ∧
      createUser .oneUser (fun _ plain => plain) .empty "" (points "admin ") (points "sentinel123") "admin" =
        .ok (provisioned "admin ", 1) ∧
      respond (Deployment.oneUser.withUsers (provisioned "admin ")) .oneAttack {}
          (.login (.json (loginBody (points "admin ") (points "sentinel123")))) =
        { status := 401, envelope := .error "invalid credentials" "unauthorized" } ∧
      ¬ LogsIn .oneUser .oneAttack {} (provisioned "admin ") (points "admin ") (points "sentinel123") 1 := by
  have hresponse : respond (Deployment.oneUser.withUsers (provisioned "admin ")) .oneAttack {}
      (.login (.json (loginBody (points "admin ") (points "sentinel123")))) =
        error "invalid credentials" 401 "unauthorized" := by
    decide
  refine ⟨checksGenerated_oneUser, rfl, hresponse, ?_⟩
  rintro ⟨name, h⟩
  rw [hresponse] at h
  cases congrArg Response.envelope h

end SentinelSsh.Backend.Api
