import SentinelSsh.Backend.Proofs.AuthProofs
import SentinelSsh.Backend.Sessions

/-!
# Who is logged in

A step changes the cookies of a client if it logs the client in, logs it out or closes its browser
(`cookies_handle`), and an account keeps what it is but for being active. So a client is authenticated as
an account exactly if that is the one of its session and it is active (`session_exact`).
-/

namespace SentinelSsh.Backend

variable {env : Env} {s s' : Server} {c : Client} {h : History} {users : List User}

/-! ## Requests -/

theorem users_handle (d : Client) (r : Request) : (s.handle env d r).users = s.users := by
  rw [Server.handle]
  split_ifs
  · rfl
  split
  · rfl
  · rw [Server.login]
    split_ifs
    · rfl
    · split <;> rfl
  · rw [Server.logout]
    split_ifs <;> rfl
  · rfl
  · rw [Server.ingestEvent]
    split_ifs
    · split <;> rfl
    · rfl
  · rfl
  · rfl

theorem loginOf_of_not_reaches {d : Client} {r : Request} (hr : s.reaches env d r .login = false) :
    s.loginOf env c (.request d r) = none := by
  rw [Server.loginOf, hr]
  exact if_neg fun hcond => absurd hcond.2.1 Bool.false_ne_true

theorem logsOut_of_not_reaches {d : Client} {r : Request} (hr : s.reaches env d r .logout = false) :
    s.logsOut env c (.request d r) = false := by
  rw [Server.logsOut, hr, Bool.and_false, Bool.false_and]

/-- What the cookies of a client are after a step. -/
def Server.CookiesAfter (env : Env) (s : Server) (c : Client) (a : Action) (cookies : Cookies) : Prop :=
  cookies = match s.loginOf env c a with
    | some user => { session := some user.id, remember := some user.id }
    | none => if s.logsOut env c a then {} else s.cookies c

theorem cookiesAfter_login {d : Client} {r : Request} (hreach : s.reaches env d r .login = true)
    (hlogout : s.reaches env d r .logout = false) :
    s.CookiesAfter env c (.request d r) ((s.login env d r).cookies c) := by
  rw [Server.CookiesAfter, logsOut_of_not_reaches hlogout, Server.loginOf, Server.login]
  by_cases hempty : String.ofList (Python.strip r.username.toList) = "" ∨ r.password = ""
  · rw [if_pos hempty, if_neg (fun hcond => hempty.elim hcond.2.2.1 hcond.2.2.2)]
    rfl
  · rw [if_neg hempty]
    rw [not_or] at hempty
    by_cases hd : d = c
    · rw [if_pos ⟨hd, hreach, hempty.1, hempty.2⟩]
      cases authenticate env.checkPasswordHash s.users _ r.password with
      | none => rfl
      | some user =>
        rw [hd]
        exact Function.update_self ..
    · rw [if_neg (fun hcond => hd hcond.1)]
      cases authenticate env.checkPasswordHash s.users _ r.password with
      | none => rfl
      | some user => exact Function.update_of_ne (Ne.symm hd) ..

theorem cookiesAfter_logout {d : Client} {r : Request} (hreach : s.reaches env d r .logout = true)
    (hlogin : s.reaches env d r .login = false) :
    s.CookiesAfter env c (.request d r) ((s.logout d).cookies c) := by
  rw [Server.CookiesAfter, loginOf_of_not_reaches hlogin, Server.logsOut, hreach, Server.logout, Bool.and_true]
  by_cases hauth : s.isAuthenticated d = true
  · rw [if_pos hauth, hauth, Bool.and_true]
    by_cases hd : d = c
    · rw [hd]
      dsimp only
      rw [if_pos (decide_eq_true rfl)]
      exact Function.update_self ..
    · dsimp only
      rw [if_neg (by simpa using hd)]
      exact Function.update_of_ne (Ne.symm hd) ..
  · rw [if_neg hauth, Bool.eq_false_iff.mpr hauth, Bool.and_false]
    rfl

/-- What a request does to the cookies of a client. -/
theorem cookies_handle (d : Client) (r : Request) :
    s.CookiesAfter env c (.request d r) ((s.handle env d r).cookies c) := by
  have hsame : ∀ cookies, cookies = s.cookies c → s.reaches env d r .login = false →
      s.reaches env d r .logout = false → s.CookiesAfter env c (.request d r) cookies := by
    intro cookies hcookies hlogin hlogout
    rw [Server.CookiesAfter, loginOf_of_not_reaches hlogin, logsOut_of_not_reaches hlogout]
    exact hcookies
  rw [Server.handle]
  by_cases hguard : requireAuth env.config s.users (s.cookies d) r.path = true
  · have hno : ∀ e, s.reaches env d r e = false := fun e => by rw [Server.reaches, hguard]; rfl
    rw [if_pos hguard]
    exact hsame _ rfl (hno _) (hno _)
  · have hreach : ∀ e, s.reaches env d r e = decide (dispatch r.method r.path = some e) := fun e => by
      rw [Server.reaches, Bool.eq_false_iff.mpr hguard]
      rfl
    rw [if_neg hguard]
    cases hd : dispatch r.method r.path with
    | none => exact hsame _ rfl (by rw [hreach, hd]; rfl) (by rw [hreach, hd]; rfl)
    | some e =>
      rw [hd] at hreach
      cases e with
      | login => exact cookiesAfter_login (by rw [hreach]; rfl) (by rw [hreach]; rfl)
      | logout => exact cookiesAfter_logout (by rw [hreach]; rfl) (by rw [hreach]; rfl)
      | ingestEvent =>
        refine hsame _ ?_ (by rw [hreach]; rfl) (by rw [hreach]; rfl)
        dsimp only
        rw [Server.ingestEvent]
        split_ifs
        · split <;> rfl
        · rfl
      | _ => exact hsame _ rfl (by rw [hreach]; rfl) (by rw [hreach]; rfl)

/-! ## Steps -/

theorem session_append (t : Runs.Transition Server Action) :
    session env c (h ++ [t]) = sessionAfter env c (session env c h) t :=
  List.foldl_concat ..

/-- The cookies hold the session after the step. -/
theorem hold_sessionAfter {current : Option User} {a : Action} (hhold : (s.cookies c).Hold current)
    (hcookies : s.CookiesAfter env c a (s'.cookies c)) :
    (s'.cookies c).Hold (sessionAfter env c current ⟨s, a, s'⟩) := by
  rw [Server.CookiesAfter] at hcookies
  rw [hcookies, sessionAfter]
  cases s.loginOf env c a with
  | some user => exact ⟨rfl, .inl rfl⟩
  | none =>
    cases s.logsOut env c a with
    | true => rfl
    | false => exact hhold

theorem hold_closeBrowser {cookies : Cookies} {current : Option User} (hhold : cookies.Hold current) :
    Cookies.Hold { cookies with session := none } current := by
  cases current with
  | none =>
    obtain rfl : cookies = {} := hhold
    rfl
  | some user => exact ⟨hhold.1, .inr rfl⟩

theorem active_of_authenticate {check : String → String → Bool} {username password : String} {user : User}
    (ha : authenticate check users username password = some user) : user ∈ users ∧ user.isActive = true := by
  obtain ⟨found, hfind, hfound⟩ := Option.bind_eq_some_iff.mp ha
  split_ifs at hfound with hactive
  obtain rfl := Option.some.inj hfound
  exact ⟨List.mem_of_find?_eq_some hfind, hactive⟩

/-- A session starts with an account that is there and active. -/
theorem active_of_loginOf {a : Action} {user : User} (hlogin : s.loginOf env c a = some user) :
    user ∈ s.users ∧ user.isActive = true := by
  cases a with
  | request d r =>
    rw [Server.loginOf] at hlogin
    split_ifs at hlogin
    exact active_of_authenticate hlogin
  | _ => cases hlogin

theorem LoggedIn.step (hl : LoggedIn env users s h) {a : Action} (hs : serverStep env s a = some s') :
    LoggedIn env users s' (h ++ [⟨s, a, s'⟩]) := by
  have haccounts : s'.users.map User.identity = s.users.map User.identity := by
    cases a with
    | request d r =>
      obtain rfl := Option.some.inj hs
      rw [users_handle]
    | setActive userId active =>
      obtain rfl := Option.some.inj hs
      show (s.users.map _).map User.identity = _
      rw [List.map_map]
      refine List.map_congr_left fun user _ => ?_
      rw [Function.comp_apply]
      split_ifs <;> rfl
    | advance i ok =>
      obtain ⟨b, -, rfl⟩ := Option.map_eq_some_iff.mp hs
      rw [Server.advance]
      cases b.pc.next <;> rfl
    | disconnect d =>
      rw [serverStep] at hs
      split_ifs at hs
      obtain rfl := Option.some.inj hs
      rfl
    | _ =>
      obtain rfl := Option.some.inj hs
      rfl
  constructor
  case accounts => rw [haccounts, hl.accounts]
  case cookies =>
    intro c
    rw [session_append]
    have hkept : s.loginOf env c a = none → s.logsOut env c a = false →
        (s'.cookies c).Hold (session env c h) →
        (s'.cookies c).Hold (sessionAfter env c (session env c h) ⟨s, a, s'⟩) := by
      intro hlogin hlogout hhold
      rw [sessionAfter, hlogin, hlogout]
      exact hhold
    cases a with
    | request d r =>
      obtain rfl := Option.some.inj hs
      exact hold_sessionAfter (hl.cookies c) (cookies_handle d r)
    | closeBrowser d =>
      obtain rfl := Option.some.inj hs
      refine hkept rfl rfl ?_
      by_cases hd : d = c
      · rw [hd]
        show (Function.update s.cookies c _ c).Hold _
        rw [Function.update_self]
        exact hold_closeBrowser (hl.cookies c)
      · show (Function.update s.cookies d _ c).Hold _
        rw [Function.update_of_ne (Ne.symm hd)]
        exact hl.cookies c
    | advance i ok =>
      obtain ⟨b, -, rfl⟩ := Option.map_eq_some_iff.mp hs
      refine hkept rfl rfl ?_
      have hsame : (s.advance i b ok).cookies = s.cookies := by
        rw [Server.advance]
        cases b.pc.next <;> rfl
      rw [hsame]
      exact hl.cookies c
    | disconnect d =>
      rw [serverStep] at hs
      split_ifs at hs
      obtain rfl := Option.some.inj hs
      exact hkept rfl rfl (hl.cookies c)
    | _ =>
      obtain rfl := Option.some.inj hs
      exact hkept rfl rfl (hl.cookies c)
  case active =>
    intro c user huser
    rw [session_append, sessionAfter] at huser
    cases hlogin : s.loginOf env c a with
    | some account =>
      dsimp only at huser
      rw [hlogin] at huser
      obtain rfl := Option.some.inj huser
      obtain ⟨hmem, hactive⟩ := active_of_loginOf hlogin
      exact ⟨hactive, hl.accounts ▸ List.mem_map_of_mem hmem⟩
    | none =>
      dsimp only at huser
      rw [hlogin] at huser
      dsimp only at huser
      split_ifs at huser
      exact hl.active c user huser

/-! ## Runs -/

theorem loggedIn_run {as : List Action} (hr : Runs.run (serverStep env) { users := users } as = some s) :
    LoggedIn env users s (Runs.history (serverStep env) { users := users } as) := by
  have hstart : LoggedIn env users { users := users } [] := by
    constructor
    case accounts => rfl
    case cookies => exact fun c => rfl
    case active =>
      intro c user huser
      cases huser
  exact Runs.run_history (J := LoggedIn env users) (fun _ _ _ _ hl _ hs => hl.step hs) hstart
    (Runs.guarded_of_forall (fun _ _ => trivial) _ as) hr

/-- Accounts with the same key are the same, if both are active. -/
theorem eq_of_identity (hids : (users.map (·.id)).Nodup) {u v : User} (hu : u.identity ∈ users.map User.identity)
    (hv : v.identity ∈ users.map User.identity) (hid : u.id = v.id) (huactive : u.isActive = true)
    (hvactive : v.isActive = true) : u = v := by
  obtain ⟨u', hu', hueq⟩ := List.mem_map.mp hu
  obtain ⟨v', hv', hveq⟩ := List.mem_map.mp hv
  have hkey : u'.id = v'.id := by
    rw [show u'.id = u.id from congrArg Prod.fst hueq, show v'.id = v.id from congrArg Prod.fst hveq, hid]
  rw [List.inj_on_of_nodup_map hids hu' hv' hkey, hveq] at hueq
  obtain ⟨uid, uname, uhash, uactive⟩ := u
  obtain ⟨vid, vname, vhash, vactive⟩ := v
  obtain ⟨rfl, rfl, rfl⟩ : vid = uid ∧ vname = uname ∧ vhash = uhash := by
    simpa [User.identity] using hueq
  rw [show uactive = vactive from huactive.trans hvactive.symm]

theorem loadUser_eq_some {userId : Nat} {user : User} (hids : (users.map (·.id)).Nodup) :
    loadUser users userId = some user ↔ user ∈ users ∧ user.id = userId ∧ user.isActive = true := by
  constructor
  · intro hload
    obtain ⟨found, hfind, hfound⟩ := Option.bind_eq_some_iff.mp hload
    split_ifs at hfound with hactive
    obtain rfl := Option.some.inj hfound
    exact ⟨List.mem_of_find?_eq_some hfind, by simpa using List.find?_some hfind, hactive⟩
  · rintro ⟨hmem, rfl, hactive⟩
    have hfind : (users.find? (·.id = user.id)).isSome = true :=
      List.find?_isSome.mpr ⟨user, hmem, decide_eq_true rfl⟩
    obtain ⟨found, hfound⟩ := Option.isSome_iff_exists.mp hfind
    have hsame : found = user := List.inj_on_of_nodup_map hids (List.mem_of_find?_eq_some hfound) hmem
      (by simpa using List.find?_some hfound)
    rw [loadUser, hfound, hsame, Option.bind_some, if_neg (not_not.mpr hactive)]

/-- In every run a client is authenticated as an account exactly if it is the account of its last login, it
has not logged out since, and the account is active now: whatever other clients do, whether it closes its
browser, and even if the account was not active in between. -/
theorem session_exact {as : List Action} (hids : (users.map (·.id)).Nodup)
    (hr : Runs.run (serverStep env) { users := users } as = some s) (c : Client) (user : User) :
    currentUser s.users (s.cookies c) = some user ↔
      session env c (Runs.history (serverStep env) { users := users } as) = some user ∧ user ∈ s.users := by
  have hl := loggedIn_run hr
  have hsids : (s.users.map (·.id)).Nodup := by
    have hmap := congrArg (List.map Prod.fst) hl.accounts
    rw [List.map_map, List.map_map] at hmap
    exact (show s.users.map (·.id) = users.map (·.id) from hmap) ▸ hids
  have hhold := hl.cookies c
  cases hsession : session env c (Runs.history (serverStep env) { users := users } as) with
  | none =>
    rw [hsession] at hhold
    rw [show s.cookies c = {} from hhold]
    exact iff_of_false (fun hnone => nomatch hnone) (fun hnone => nomatch hnone.1)
  | some account =>
    rw [hsession] at hhold
    have hcurrent : currentUser s.users (s.cookies c) = loadUser s.users account.id := by
      rw [currentUser, hhold.1]
      rcases hhold.2 with hcookie | hcookie
      · rw [hcookie]
        rfl
      · rw [hcookie]
        rfl
    obtain ⟨hactive, hknown⟩ := hl.active c account hsession
    rw [hcurrent, loadUser_eq_some hsids]
    constructor
    · rintro ⟨hmem, hid, huactive⟩
      have huknown : user.identity ∈ users.map User.identity := hl.accounts ▸ List.mem_map_of_mem hmem
      rw [eq_of_identity hids hknown huknown hid.symm hactive huactive]
      exact ⟨rfl, hmem⟩
    · rintro ⟨haccount, hmem⟩
      obtain rfl := Option.some.inj haccount
      exact ⟨hmem, rfl, hactive⟩

/-- The analyst logs in and closes the browser; the logout is refused while the account is not active. -/
def refusedLogout : List Action :=
  logIn ++ [.closeBrowser 1, .setActive 1 false, .request 1 { method := .post, path := "/api/auth/logout" },
    .setActive 1 true]

theorem session_exact_refusedLogout :
    ∃ s, Runs.run (serverStep testEnv) { users := analyst } refusedLogout = some s ∧
      currentUser s.users (s.cookies 1) = some { id := 1, username := "analyst", passwordHash := "s3cret" } := by
  have hrun : ((Runs.run (serverStep testEnv) { users := analyst } refusedLogout).any fun s =>
      s.users = analyst) = true := by decide
  obtain ⟨s, hr, hend⟩ := (Option.any_eq_true _ _).mp hrun
  refine ⟨s, hr, (session_exact (by decide) hr 1 _).mpr ⟨by decide, ?_⟩⟩
  rw [of_decide_eq_true hend]
  decide

end SentinelSsh.Backend
