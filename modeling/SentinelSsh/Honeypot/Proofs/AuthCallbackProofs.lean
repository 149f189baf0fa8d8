import SentinelSsh.Honeypot.Proofs.SessionHandlerProofs

/-!
# Attempts on one connection

Both authentication callbacks count in the record, and nothing else a session does touches what they
write. So the record of a running session always tells how many callbacks there were, and whether a
password is accepted depends on their number alone, keys that were offered before included.
-/

namespace SentinelSsh.Honeypot

open Python

/-! ## Callbacks -/

section Callbacks

variable {server : HoneypotServer} {callbacks : List AuthCallback} {maxAuthAttempts : Int}

/-- A callback is recorded. -/
theorem submitted_checkAuth (h : server.record.Submitted callbacks) (callback : AuthCallback) :
    (server.checkAuth callback).1.record.Submitted (callbacks ++ [callback]) := by
  have hcount : server.record.authAttempts + 1 = (callbacks ++ [callback]).length := by
    rw [h.authAttempts, List.length_append, List.length_singleton]
  have hlast : some callback.username = (callbacks ++ [callback]).getLast?.map (·.username) := by
    rw [List.getLast?_concat, Option.map_some]
  cases callback with
  | password username password =>
    refine ⟨hcount, hlast, ?_⟩
    rw [List.filterMap_append]
    exact List.getLast?_concat.symm
  | publickey username =>
    refine ⟨hcount, hlast, ?_⟩
    rw [List.filterMap_append]
    show server.record.password = _
    rw [h.password]
    exact congrArg List.getLast? (List.append_nil _).symm

@[simp] theorem maxAuthAttempts_checkAuth (callback : AuthCallback) :
    (server.checkAuth callback).1.maxAuthAttempts = server.maxAuthAttempts := by
  cases callback <;> rfl

/-- What a server has recorded decides its answers. -/
theorem answers_of_submitted (h : server.record.Submitted callbacks) :
    server.Answers server.maxAuthAttempts callbacks := by
  refine ⟨h, fun username password => ?_, fun username => rfl⟩
  unfold HoneypotServer.checkAuth HoneypotServer.checkAuthPassword
  dsimp only
  rw [h.authAttempts]
  split
  · next hover =>
    refine iff_of_false (by decide) ?_
    push_cast at hover
    omega
  · next hroom =>
    refine iff_of_true rfl ?_
    push_cast at hroom
    omega

theorem afterAuth_concat (callback : AuthCallback) :
    server.afterAuth (callbacks ++ [callback]) = ((server.afterAuth callbacks).checkAuth callback).1 := by
  rw [HoneypotServer.afterAuth, List.foldl_append]
  rfl

/-- A server that has seen nothing has recorded exactly the callbacks it is given. -/
theorem submitted_afterAuth (h : server.record.Submitted []) (callbacks : List AuthCallback) :
    (server.afterAuth callbacks).record.Submitted callbacks ∧
      (server.afterAuth callbacks).maxAuthAttempts = server.maxAuthAttempts := by
  induction callbacks using List.reverseRecOn with
  | nil => exact ⟨h, rfl⟩
  | append_singleton callbacks callback ih =>
    rw [afterAuth_concat]
    exact ⟨submitted_checkAuth ih.1 callback, (maxAuthAttempts_checkAuth callback).trans ih.2⟩

end Callbacks

/-! ## Sessions -/

section Sessions

variable {config : HoneypotConfig} {sinks : List SinkName} {s s' t : Session} {a : Action}

/-- What a step does to the part of the server the callbacks are about: a callback is handled, or that
part is as before. -/
theorem auth_moved (hm : Moved config sinks s a s') :
    (∃ callback, a.auth? = some callback ∧ s'.server = (s.server.checkAuth callback).1) ∨
      (a.auth? = none ∧ s'.server.maxAuthAttempts = s.server.maxAuthAttempts ∧
        s'.server.record.authAttempts = s.server.record.authAttempts ∧
        s'.server.record.username = s.server.record.username ∧
        s'.server.record.password = s.server.record.password) := by
  cases hm with
  | authPassword => exact Or.inl ⟨_, rfl, rfl⟩
  | authPublickey => exact Or.inl ⟨_, rfl, rfl⟩
  | goes hg => exact Or.inr ⟨by cases hg <;> rfl, rfl, rfl, rfl, rfl⟩
  | network ha => exact Or.inr ⟨by rcases ha with ⟨kind, rfl⟩ | rfl <;> rfl, rfl, rfl, rfl, rfl⟩
  | @shellTurn now buffer ch pending h =>
    refine Or.inr ⟨rfl, ?_⟩
    unfold shellTick
    dsimp only
    cases (shellChar (prompt config.fakeHostname) buffer ch).command with
    | none => exact ⟨rfl, rfl, rfl, rfl⟩
    | some cmd => exact ⟨rfl, rfl, rfl, rfl⟩
  | _ => exact Or.inr ⟨rfl, rfl, rfl, rfl, rfl⟩

/-- A session has recorded exactly the callbacks of its run. -/
theorem submitted_run {actions : List Action} (h : s.server.record.Submitted [])
    (hr : Runs.run (sessionStep config sinks) s actions = some t) :
    t.server.record.Submitted (actions.filterMap (·.auth?)) ∧
      t.server.maxAuthAttempts = s.server.maxAuthAttempts := by
  induction actions using List.reverseRecOn generalizing t with
  | nil =>
    cases hr
    exact ⟨h, rfl⟩
  | append_singleton actions a ih =>
    obtain ⟨u, hu, hlast⟩ := Runs.run_append.mp hr
    obtain ⟨u', hstep, hnil⟩ := Runs.run_cons.mp hlast
    cases hnil
    obtain ⟨hsub, hmax⟩ := ih hu
    rw [List.filterMap_append]
    rcases auth_moved (moved_of_step hstep) with ⟨callback, ha, hserver⟩ | ⟨ha, hlimit, hcount, hname, hpass⟩
    · rw [List.filterMap_cons_some ha, hserver, maxAuthAttempts_checkAuth]
      exact ⟨submitted_checkAuth hsub callback, hmax⟩
    · rw [List.filterMap_cons_none ha, List.filterMap_nil, List.append_nil, hlimit]
      exact ⟨⟨hcount.trans hsub.authAttempts, hname.trans hsub.username, hpass.trans hsub.password⟩, hmax⟩

/-- A password is accepted if and only if it is within the limit of attempts, whichever callbacks came
before it and whatever else the session has done; all callbacks are counted, and what was submitted last
is recorded. -/
theorem auth_exact (config : HoneypotConfig) (sinks : List SinkName) (sessionId timestamp sourceIp : String)
    (sourcePort : Nat) :
    (∀ callbacks, ((Session.start config sessionId timestamp sourceIp sourcePort).server.afterAuth
        callbacks).Answers config.maxAuthAttempts callbacks) ∧
      ∀ actions t, Runs.run (sessionStep config sinks)
          (.start config sessionId timestamp sourceIp sourcePort) actions = some t →
        t.server.Answers config.maxAuthAttempts (actions.filterMap (·.auth?)) := by
  have hfresh : (Session.start config sessionId timestamp sourceIp sourcePort).server.record.Submitted [] :=
    ⟨rfl, rfl, rfl⟩
  refine ⟨fun callbacks => ?_, fun actions t hr => ?_⟩
  · obtain ⟨hsub, hmax⟩ := submitted_afterAuth hfresh callbacks
    have hanswers := answers_of_submitted hsub
    rwa [hmax] at hanswers
  · obtain ⟨hsub, hmax⟩ := submitted_run hfresh hr
    have hanswers := answers_of_submitted hsub
    rwa [hmax] at hanswers

/-- After a login the callbacks of the run are that one password. -/
theorem auth_exact_login : ∃ t, Runs.run (sessionStep {} [.jsonl])
      (.start {} "0b5e" "2026-01-01T00:00:10+00:00" "8.8.8.8" 51514) login = some t ∧
    t.server.Answers 6 [.password "root" (.str "123456")] := by
  have hsome : (Runs.run (sessionStep {} [.jsonl])
      (.start {} "0b5e" "2026-01-01T00:00:10+00:00" "8.8.8.8" 51514) login).isSome = true := by decide
  obtain ⟨t, hr⟩ := Option.isSome_iff_exists.mp hsome
  exact ⟨t, hr, (auth_exact {} [.jsonl] _ _ _ _).2 login t hr⟩

/-- A client that offers six keys is refused with the password it sends then. -/
theorem not_accepted_sixKeys :
    ¬ ∀ (config : HoneypotConfig) (offers : List String) (username : String) (password : Text),
      1 ≤ config.maxAuthAttempts →
        (((Session.start config "0b5e" "2026-01-01T00:00:10+00:00" "8.8.8.8" 51514).server.afterAuth
          (offers.map .publickey)).checkAuth (.password username password)).2 = .successful := by
  intro h
  have hsix := h {} (List.replicate 6 "root") "root" (.str "123456") (by decide)
  exact absurd hsix (by decide)

end Sessions

end SentinelSsh.Honeypot
