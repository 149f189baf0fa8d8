import SentinelSsh.Backend.Realtime

/-!
# Who is sent attack data

The guard covers every endpoint with data (`authenticated_of_data`), so requests are answered with
data to authenticated clients only. A Socket.IO event goes to everybody who is connected, and the
connect handler admits everybody: what a step emits is sent to authenticated clients only exactly when
all connected clients are.
-/

namespace SentinelSsh.Backend

/-! ## The guard -/

/-- A text without the separator that begins a text begins what stands before its separator. -/
theorem prefix_of_prefix_append {p x rest : List Char} {c : Char} (hc : c ∉ p)
    (h : p <+: x ++ c :: rest) : p <+: x := by
  induction p generalizing x with
  | nil => exact List.nil_prefix
  | cons d p ih =>
    cases x with
    | nil => exact absurd (List.cons_prefix_cons.mp h).1 fun hd => hc (by simp [hd])
    | cons y x =>
      obtain ⟨rfl, hp⟩ := List.cons_prefix_cons.mp h
      exact List.cons_prefix_cons.mpr ⟨rfl, ih (fun hm => hc (List.mem_cons_of_mem _ hm)) hp⟩

theorem path_of_splitOn {path a x : List Char} {rest : List (List Char)}
    (h : path.splitOn '/' = [] :: a :: x :: rest) :
    ∃ tail, path = '/' :: a ++ '/' :: (x ++ tail) ∧ (tail = [] ∨ ∃ u, tail = '/' :: u) := by
  have hpath : ['/'].intercalate (path.splitOn '/') = path := List.intercalate_splitOn '/'
  rw [h] at hpath
  cases rest with
  | nil => exact ⟨[], by simpa using hpath.symm, Or.inl rfl⟩
  | cons y rest =>
    exact ⟨'/' :: ['/'].intercalate (y :: rest), by simpa using hpath.symm, Or.inr ⟨_, rfl⟩⟩

/-- A rule under `/api/` and not under an exempt prefix. -/
def guardedRule : List Segment → Bool
  | .lit a :: .lit b :: .lit x :: _ =>
    a = "" && b = "api" && !("auth".toList.isPrefixOf x.toList) &&
      !("internal".toList.isPrefixOf x.toList)
  | _ => false

/-- Every route with data has a guarded rule. -/
theorem guardedRule_of_carriesData :
    ∀ r ∈ routes, r.endpoint.carriesData = true → guardedRule r.rule = true := by
  decide

theorem path_of_guardedRule {rule : List Segment} {path : List Char} (hr : guardedRule rule = true)
    (hm : matchRule rule (path.splitOn '/') = true) :
    ∃ x tail : List Char, path = "/api/".toList ++ (x ++ tail) ∧ (tail = [] ∨ ∃ u, tail = '/' :: u) ∧
      ¬ "auth".toList <+: x ∧ ¬ "internal".toList <+: x := by
  match rule, hr with
  | .lit a :: .lit b :: .lit x :: rule, hr =>
    simp only [guardedRule, Bool.and_eq_true, decide_eq_true_eq, Bool.not_eq_true',
      ← Bool.not_eq_true, List.isPrefixOf_iff_prefix] at hr
    obtain ⟨⟨⟨rfl, rfl⟩, hauth⟩, hinternal⟩ := hr
    rcases hsplit : path.splitOn '/' with _ | ⟨p₀, _ | ⟨p₁, _ | ⟨p₂, rest⟩⟩⟩ <;> rw [hsplit] at hm <;>
      simp only [matchRule, Bool.and_eq_true, Bool.and_false, Bool.false_eq_true,
        decide_eq_true_eq] at hm
    obtain ⟨rfl, rfl, rfl, -⟩ := hm
    obtain ⟨tail, hpath, htail⟩ := path_of_splitOn hsplit
    exact ⟨x.toList, tail, hpath, htail, hauth, hinternal⟩

/-- What the guard lets through to an endpoint with data comes from an authenticated client. -/
theorem authenticated_of_data {config : AppConfig} {users : List User} {cookies : Cookies}
    {method : Method} {path : String} {e : Endpoint} (hauth : config.authRequired = true)
    (hguard : requireAuth config users cookies path = false) (hd : dispatch method path = some e)
    (hdata : e.carriesData = true) : isAuthenticated users cookies = true := by
  obtain ⟨r, hr, rfl⟩ := Option.map_eq_some_iff.mp hd
  have hrule := List.find?_some hr
  rw [Bool.and_eq_true] at hrule
  obtain ⟨x, tail, hpath, htail, hnauth, hninternal⟩ :=
    path_of_guardedRule (guardedRule_of_carriesData r (List.mem_of_find?_eq_some hr) hdata) hrule.2
  have hbefore : ∀ p : List Char, '/' ∉ p → p <+: x ++ tail → p <+: x := by
    intro p hp h
    rcases htail with rfl | ⟨u, rfl⟩
    · rwa [List.append_nil] at h
    · exact prefix_of_prefix_append hp h
  have hapi : "/api/".toList <+: path.toList := hpath ▸ List.prefix_append _ _
  have hexempt : ¬ ∃ p ∈ authExempt, p.toList <+: path.toList := by
    rintro ⟨p, hp, h⟩
    rw [hpath] at h
    rcases List.mem_cons.mp hp with rfl | hp
    · exact hnauth (hbefore _ (by decide) ((List.prefix_append_right_inj "/api/".toList).mp h))
    · obtain rfl := List.mem_singleton.mp hp
      exact hninternal (hbefore _ (by decide) ((List.prefix_append_right_inj "/api/".toList).mp h))
  rw [requireAuth, if_neg (by simp [hauth]), if_neg (not_not.mpr hapi), if_neg hexempt] at hguard
  simpa using hguard

/-! ## Requests -/

variable {env : Env} {s : Server}

theorem secure_respond (c : Client) {m : Message} (h : m.carriesData = false) :
    (s.respond c m).Secure := by
  intro x hx hdata
  obtain rfl := List.mem_singleton.mp hx
  rw [h] at hdata
  exact absurd hdata (by decide)

theorem secure_respond_of_authenticated {c : Client} (h : s.isAuthenticated c = true) (m : Message) :
    (s.respond c m).Secure := by
  intro x hx _
  obtain rfl := List.mem_singleton.mp hx
  exact h

theorem secure_login (c : Client) (r : Request) : (s.login env c r).Secure := by
  rw [Server.login]
  split_ifs
  · exact secure_respond c rfl
  · split
    · exact secure_respond c rfl
    · exact secure_respond c rfl

theorem secure_ingestEvent (c : Client) (r : Request) : (s.ingestEvent env c r).Secure := by
  rw [Server.ingestEvent]
  split_ifs
  · split
    · exact secure_respond c rfl
    · exact fun m hm => absurd hm List.not_mem_nil
  · exact secure_respond c rfl

/-- Requests are answered with data to authenticated clients only. -/
theorem secure_handle (hauth : env.config.authRequired = true) (c : Client) (r : Request) :
    (s.handle env c r).Secure := by
  rw [Server.handle]
  split_ifs with hguard
  · exact secure_respond c rfl
  have hview : ∀ e, dispatch r.method r.path = some e → (s.view c r e).Secure := by
    intro e he
    cases hdata : e.carriesData with
    | true =>
      exact secure_respond_of_authenticated
        (authenticated_of_data hauth (Bool.eq_false_iff.mpr hguard) he hdata) _
    | false =>
      refine secure_respond c ?_
      cases r.failure with
      | none => exact hdata
      | some f => rfl
  split
  · exact secure_respond c rfl
  · exact secure_login c r
  · rw [Server.logout]
    split_ifs <;> exact secure_respond c rfl
  · refine secure_respond c ?_
    split_ifs <;> rfl
  · exact secure_ingestEvent c r
  · refine secure_respond c ?_
    split_ifs <;> rfl
  · exact hview _ (by assumption)

/-! ## Steps and runs -/

theorem carriesData_of_emission {b : Broadcast} {ok : Bool} {m : Message}
    (h : b.emission ok = some m) : m.carriesData = true := by
  rw [Broadcast.emission] at h
  cases hpc : b.pc with
  | attack =>
    rw [hpc] at h
    obtain rfl := Option.some.inj h
    rfl
  | stats =>
    rw [hpc] at h
    dsimp only at h
    split_ifs at h
    obtain rfl := Option.some.inj h
    rfl
  | incident =>
    rw [hpc] at h
    obtain ⟨n, -, rfl⟩ := Option.map_eq_some_iff.mp h
    rfl

/-- A step of a thread is secure exactly when its audience is authenticated. -/
theorem secure_advance_iff (i : Nat) (b : Broadcast) (ok : Bool) :
    (s.advance i b ok).Secure ↔
      ((b.emission ok).isSome = true → ∀ c ∈ s.connected, s.isAuthenticated c = true) := by
  have hemit : (∀ m ∈ (b.emission ok).elim [] s.emit, m.2.carriesData = true →
      s.isAuthenticated m.1 = true) ↔
        ((b.emission ok).isSome = true → ∀ c ∈ s.connected, s.isAuthenticated c = true) := by
    cases he : b.emission ok with
    | none => simp
    | some m =>
      simp [Server.emit, carriesData_of_emission he]
  rw [← hemit, Server.advance]
  cases b.pc.next with
  | some pc => rfl
  | none =>
    constructor
    · exact fun h m hm => h m (List.mem_append_left _ hm)
    · intro h m hm hdata
      rcases List.mem_append.mp hm with hm | hm
      · exact h m hm hdata
      · obtain rfl := List.mem_singleton.mp hm
        exact absurd hdata Bool.false_ne_true

/-- A step is secure exactly when the audience of what it emits is authenticated. -/
theorem secure_step_iff (hauth : env.config.authRequired = true) {a : Action} {s' : Server}
    (hs : serverStep env s a = some s') : s'.Secure ↔ AudienceAuthenticated s a := by
  have hsilent : s.emission a = none → s'.Secure → (s'.Secure ↔ AudienceAuthenticated s a) :=
    fun he h => iff_of_true h fun hsome => by rw [he] at hsome; exact absurd hsome (by decide)
  cases a with
  | request c r =>
    obtain rfl := Option.some.inj hs
    exact hsilent rfl (secure_handle hauth c r)
  | connect c =>
    obtain rfl := Option.some.inj hs
    refine hsilent rfl fun m hm hdata => ?_
    obtain ⟨d, -, rfl⟩ := List.mem_map.mp hm
    exact absurd hdata Bool.false_ne_true
  | disconnect c =>
    rw [serverStep] at hs
    split_ifs at hs
    obtain rfl := Option.some.inj hs
    exact hsilent rfl fun m hm => absurd hm List.not_mem_nil
  | advance i ok =>
    obtain ⟨b, hb, rfl⟩ := Option.map_eq_some_iff.mp hs
    rw [secure_advance_iff, AudienceAuthenticated, Server.emission, hb]
    rfl
  | closeBrowser c =>
    obtain rfl := Option.some.inj hs
    exact hsilent rfl fun m hm => absurd hm List.not_mem_nil
  | setActive userId active =>
    obtain rfl := Option.some.inj hs
    exact hsilent rfl fun m hm => absurd hm List.not_mem_nil

/-- Confidentiality of the dashboard's data. With `AUTH_REQUIRED`, in a run of the backend no client
is sent attack, stats or incident data while it is not authenticated, in an answer or in a broadcast,
if and only if all connected clients are authenticated whenever something is emitted. -/
theorem secure_iff_audienceAuthenticated (env : Env) (hauth : env.config.authRequired = true)
    (users : List User) (as : List Action) :
    Runs.Always (serverStep env) Server.Secure { users := users } as ↔
      Runs.Guarded (serverStep env) AudienceAuthenticated { users := users } as :=
  Runs.always_iff_guarded (I := Server.Secure)
    (fun _ _ _ _ hg hs => (secure_step_iff hauth hs).mpr hg) (fun _ h => h)
    (fun _ _ _ _ hs h => (secure_step_iff hauth hs).mp h)
    fun _ hm => absurd hm List.not_mem_nil

/-- A backend with one account. -/
def analyst : List User :=
  [{ id := 1, username := "analyst", passwordHash := "s3cret" }]

/-- The settings of the examples: `check_password_hash` of hashes that are the password. -/
def testEnv : Env where
  config := { internalApiToken := some "token" }
  checkPasswordHash hash password := hash = password

/-- Client 0 posts an event, which is broadcast to the end. -/
def broadcastEvent : List Action :=
  [.request 0
      { method := .post, path := "/api/internal/events", token := some "token",
        snapshot := some { incidentId := some 3 } },
    .advance 0 true, .advance 0 true, .advance 0 true]

/-- Client 1 logs in and reads the statistics. -/
def logIn : List Action :=
  [.request 1
      { method := .post, path := "/api/auth/login", username := "analyst", password := "s3cret" },
    .request 1 { method := .get, path := "/api/stats" }]

/-- The analyst logs in, connects and receives an event. -/
theorem secure_iff_audienceAuthenticated_logIn :
    Runs.Always (serverStep testEnv) Server.Secure { users := analyst }
      (logIn ++ [.connect 1] ++ broadcastEvent) :=
  (secure_iff_audienceAuthenticated testEnv rfl analyst _).mpr (by decide)

/-- A client that is not logged in connects and receives an event. -/
theorem not_secure_anonymous : ¬ ∀ (env : Env) (users : List User) (as : List Action),
    env.config.authRequired = true →
      Runs.Always (serverStep env) Server.Secure { users := users } as := by
  intro h
  exact absurd (h testEnv analyst ([.connect 2] ++ broadcastEvent) rfl) (by decide)

end SentinelSsh.Backend
