import SentinelSsh.Honeypot.Completion
import SentinelSsh.Honeypot.Proofs.SessionHandlerProofs

/-!
# Every session ends

Without the client each step of the handler lowers the rank (`rank_moved`), and there is always one to take
(`exists_ownStep`), whether the statement raises or not. So from every state of every session the handler
comes to its end once the client is gone (`session_completes`); before, it waits in `recv` and where it
sends.
-/

namespace SentinelSsh.Honeypot

variable {config : HoneypotConfig} {sinks : List SinkName} {s s' : Session} {a : Action}

/-! ## Ranks -/

theorem finalise_lt_rank {pc : Pc} (h : pc.isTry = true) (sinkCount execs : Nat) :
    Pc.finalise.rank sinkCount execs < pc.rank sinkCount execs := by
  cases pc <;> simp [Pc.isTry] at h <;> simp only [Pc.rank] <;> omega

/-- Without the client the handler goes down, but for a timeout of `recv`. -/
theorem rank_goes {pc : Pc} (hg : Goes config sinks s a pc) (ha : a.isClient = false) :
    pc.rank sinks.length s.server.execCommands.length + 1 ≤ s.rank sinks + a.cost := by
  unfold Session.rank
  cases hg with
  | negotiated h => cases ha
  | received h hdata => exact absurd ha (by simp [Action.isClient, hdata])
  | raised h =>
    have hlt := finalise_lt_rank h sinks.length s.server.execCommands.length
    omega
  | execDone h hi =>
    rw [h]
    simp only [Pc.rank]
    omega
  | written h hk =>
    rw [h]
    simp only [Pc.rank]
    omega
  | recvTimeout h =>
    rw [h]
    simp [Pc.rank, Action.cost]
  | negotiationFailed h | accepted h | notAccepted h | hasExec h he | noExec h he | waited h | shellTimeout h
  | hasShell h | noShell h | shellFull h hfull | shellNext h hroom | late h | ended h | chunkDone h | closed h
  | finished h =>
    rw [h]
    simp only [Pc.rank]
    omega

theorem rank_moved (hm : Moved config sinks s a s') (ha : a.isClient = false) :
    s'.rank sinks + 1 ≤ s.rank sinks + a.cost := by
  cases hm with
  | goes hg => exact rank_goes hg ha
  | authPassword | authPublickey | shellRequest | execRequest => cases ha
  | network hn =>
    rcases hn with ⟨kind, rfl⟩ | rfl
    · cases ha
    · cases ha
  | version h | exitStatus h | welcome h | duration h =>
    rw [Session.rank, Session.rank, h]
    simp only [Pc.rank]
    omega
  | execTurn h hcmd =>
    obtain ⟨hi, -⟩ := List.getElem?_eq_some_iff.mp hcmd
    rw [Session.rank, Session.rank, h]
    simp only [Pc.rank]
    omega
  | @shellTurn now buffer ch pending h =>
    rw [Session.rank, Session.rank, h, shellTick]
    dsimp only
    split_ifs
    · simp only [Pc.rank]
      omega
    · simp only [Pc.rank, List.length_cons]
      omega
  | deliver h hk =>
    obtain ⟨hk, -⟩ := List.getElem?_eq_some_iff.mp hk
    rw [Session.rank, Session.rank, h]
    simp only [Pc.rank]
    omega

/-! ## Progress -/

/-- The next statement depends on the state only and does not wait. -/
def Pc.ticks : Pc → Bool
  | .negotiate | .version | .accept | .waitShell | .shellTop _ | .shellRecv _ | .finalise | .done => false
  | _ => true

theorem tick_isSome (hpc : s.pc.ticks = true) : (sessionStep config sinks s (.tick "")).isSome = true := by
  show (tick config sinks "" s).isSome = true
  cases h : s.pc with
  | negotiate | version | accept | waitShell | shellTop | shellRecv | finalise | done =>
    rw [h] at hpc
    cases hpc
  | exec i =>
    simp only [tick, h]
    cases s.server.execCommands[i]? <;> rfl
  | shellChars buffer pending => cases pending <;> simp only [tick, h, Option.isSome_some]
  | sink k =>
    simp only [tick, h]
    cases sinks[k]? <;> rfl
  | check | execExit | testShell | welcome | closing | closeTransport =>
    simp only [tick, h, Option.isSome_some]

/-- Until the handler is done it has a step of its own, which in `recv` is the end of the stream. -/
theorem exists_own (hdone : s.pc ≠ .done) :
    ∃ a, a.isOwn = true ∧ (sessionStep config sinks s a).isSome = true ∧
      ∀ data, a = .recv data → ∃ buffer, s.pc = .shellRecv buffer := by
  cases hpc : s.pc with
  | negotiate => exact ⟨.negotiationFailed, rfl, by simp [sessionStep, hpc], fun _ h => by cases h⟩
  | version => exact ⟨.readVersion none, rfl, by simp [sessionStep, hpc], fun _ h => by cases h⟩
  | accept => exact ⟨.acceptTimeout, rfl, by simp [sessionStep, hpc], fun _ h => by cases h⟩
  | waitShell => exact ⟨.shellTimeout, rfl, by simp [sessionStep, hpc], fun _ h => by cases h⟩
  | shellTop buffer => exact ⟨.deadline, rfl, by simp [sessionStep, hpc], fun _ h => by cases h⟩
  | finalise => exact ⟨.setDuration 0, rfl, by simp [sessionStep, hpc], fun _ h => by cases h⟩
  | shellRecv buffer => exact ⟨.recv [], rfl, by simp [sessionStep, hpc], fun _ _ => ⟨buffer, rfl⟩⟩
  | done => exact absurd hpc hdone
  | check | exec i | execExit | testShell | welcome | shellChars buffer pending | closing | sink k
  | closeTransport => exact ⟨.tick "", rfl, tick_isSome (by rw [hpc]; rfl), fun _ h => by cases h⟩

/-- It also has one where statements raise. -/
theorem exists_ownStep (raises : Session → Bool) (hdone : s.pc ≠ .done) :
    ∃ a, OwnStep raises s a ∧ (sessionStep config sinks s a).isSome = true := by
  unfold OwnStep
  by_cases hraises : (s.pc.isTry && raises s) = true
  · have htry := (Bool.and_eq_true_iff.mp hraises).1
    refine ⟨.fail, by rw [if_pos hraises], ?_⟩
    simp [sessionStep, htry]
  · obtain ⟨a, hown, henabled, -⟩ := @exists_own config sinks s hdone
    exact ⟨a, by rwa [if_neg hraises], henabled⟩

theorem isClient_of_ownStep {raises : Session → Bool} (h : OwnStep raises s a) :
    a.isClient = false ∧ a.cost = 0 := by
  unfold OwnStep at h
  split at h
  · rw [h]
    exact ⟨rfl, rfl⟩
  · simp only [Action.isOwn, Bool.and_eq_true, Bool.not_eq_true', decide_eq_true_eq] at h
    exact ⟨h.1.1, if_neg h.2⟩

/-- A step of its own is progress. -/
theorem rank_of_ownStep {raises : Session → Bool} (h : OwnStep raises s a)
    (hs : sessionStep config sinks s a = some s') : s'.rank sinks < s.rank sinks := by
  obtain ⟨hclient, hcost⟩ := isClient_of_ownStep h
  have hlt := rank_moved (moved_of_step hs) hclient
  rwa [hcost] at hlt

/-! ## Ends -/

/-- Only `transport.close` is followed by the end. -/
theorem closeTransport_of_moved (hm : Moved config sinks s a s') (hpc : s.pc ≠ .done) (hdone : s'.pc = .done) :
    s.pc = .closeTransport ∧ ∃ now, a = .tick now := by
  cases hm with
  | goes hg =>
    cases hg with
    | finished h => exact ⟨h, _, rfl⟩
    | _ => cases hdone
  | @shellTurn now buffer ch pending h =>
    rw [shellTick] at hdone
    dsimp only at hdone
    split_ifs at hdone
  | authPassword | authPublickey | shellRequest | execRequest => exact absurd hdone hpc
  | network hn => exact absurd hdone hpc
  | _ => cases hdone

/-- When the handler is done, the transport is closed. -/
theorem silent_step (hs : s.pc = .done → s.isServing = false) (hstep : sessionStep config sinks s a = some s')
    (hdone : s'.pc = .done) : s'.isServing = false := by
  by_cases hpc : s.pc = .done
  · have hclosed := hs hpc
    cases a with
    | hangUp => exact Option.some.inj hstep ▸ rfl
    | tick now => simp [sessionStep, tick, hpc] at hstep
    | _ => simp [sessionStep, hpc, hclosed, Pc.isTry] at hstep
  · obtain ⟨hclose, now, rfl⟩ := closeTransport_of_moved (moved_of_step hstep) hpc hdone
    simp only [sessionStep, tick, hclose, Option.some.injEq] at hstep
    rw [← hstep]

/-- The deliveries of a session that is done. -/
theorem complete_run {as : List Action} {t : Session} (hok : DeliveryOk sinks s)
    (hs : s.pc = .done → s.isServing = false) (hr : Runs.run (sessionStep config sinks) s as = some t)
    (hdone : t.pc = .done) : t.Complete sinks := by
  have hboth : DeliveryOk sinks t ∧ (t.pc = .done → t.isServing = false) :=
    Runs.run_invariant (I := fun s => DeliveryOk sinks s ∧ (s.pc = .done → s.isServing = false))
      (fun s a s' h hstep => ⟨h.1.moved (moved_of_step hstep), fun hd => silent_step h.2 hstep hd⟩) ⟨hok, hs⟩ hr
  constructor
  case done => exact hdone
  case delivered => rw [hboth.1.written, hdone, Pc.written]
  case silent => exact hboth.2 hdone

/-- From every state of every session, whatever the client has done so far: once it is gone, the handler
comes to its end, wherever its statements raise; there is always a next step; the only places where it may
wait for the client to go are `recv` and the statements that send; it takes a bounded number of statements;
and when it is done, each sink was handed the record exactly once, in the order of the sinks, and the
transport is closed. -/
theorem session_completes {sessionId timestamp sourceIp : String} {sourcePort : Nat} {as : List Action}
    (hr : Runs.run (sessionStep config sinks)
      (Session.start config sessionId timestamp sourceIp sourcePort) as = some s) :
    (∀ raises, ∃ bs t, Runs.Guarded (sessionStep config sinks) (OwnStep raises) { s with isServing := false } bs ∧
        Runs.run (sessionStep config sinks) s (.hangUp :: bs) = some t ∧ t.Complete sinks) ∧
      (∀ raises, s.pc ≠ .done → ∃ b, OwnStep raises s b ∧ (sessionStep config sinks s b).isSome = true) ∧
      (s.pc ≠ .done → s.waits config = false → ∃ b, b.isOwn = true ∧
        (sessionStep config sinks s b).isSome = true ∧ ∀ data, b ≠ .recv data) ∧
      (∀ bs t, (∀ b ∈ bs, b.isClient = false) → Runs.run (sessionStep config sinks) s bs = some t →
        bs.length + t.rank sinks ≤ s.rank sinks + (bs.map Action.cost).sum) ∧
      (s.pc = .done → s.Complete sinks) := by
  have hstart : DeliveryOk sinks (.start config sessionId timestamp sourceIp sourcePort) :=
    ⟨rfl, by simp [Session.start]⟩
  have hopen : (Session.start config sessionId timestamp sourceIp sourcePort).pc = .done →
      (Session.start config sessionId timestamp sourceIp sourcePort).isServing = false := by
    intro h
    cases h
  refine ⟨fun raises => ?ends, fun raises => exists_ownStep raises, fun hdone hwaits => ?waits,
    fun bs t hbs ht => ?bounded, complete_run hstart hopen hr⟩
  case ends =>
    have hlower : ∀ s : Session, ¬ s.pc = .done →
        ∃ bs t, Runs.Guarded (sessionStep config sinks) (OwnStep raises) s bs ∧
          Runs.run (sessionStep config sinks) s bs = some t ∧ t.rank sinks < s.rank sinks := by
      intro s hs
      obtain ⟨b, hown, henabled⟩ := @exists_ownStep config sinks s raises hs
      obtain ⟨t, ht⟩ := Option.isSome_iff_exists.mp henabled
      exact ⟨[b], t, fun _ _ => ⟨hown, trivial⟩, Runs.run_cons.mpr ⟨t, ht, rfl⟩, rank_of_ownStep hown ht⟩
    obtain ⟨bs, t, hbs, ht, hdone⟩ :=
      Runs.exists_run_of_rank (P := (·.pc = .done)) hlower { s with isServing := false }
    have hgone : Runs.run (sessionStep config sinks) s (.hangUp :: bs) = some t :=
      Runs.run_cons.mpr ⟨_, rfl, ht⟩
    exact ⟨bs, t, hbs, hgone, complete_run hstart hopen (Runs.run_append.mpr ⟨s, hr, hgone⟩) hdone⟩
  case waits =>
    obtain ⟨b, hown, henabled, hrecv⟩ := @exists_own config sinks s hdone
    refine ⟨b, hown, henabled, fun data hdata => ?_⟩
    obtain ⟨buffer, hpc⟩ := hrecv data hdata
    rw [Session.waits, hpc] at hwaits
    cases hwaits
  case bounded =>
    exact Runs.length_le_of_rank (fun s b s' hb hs => rank_moved (moved_of_step hs) hb) hbs ht

/-- The client asks for a shell, types half a line and is gone; `channel.close` raises. -/
theorem session_completes_halfLine : ∃ s, Runs.run (sessionStep {} (buildSink {} false))
      (.start {} "0b5e" "2026-01-01T00:00:10+00:00" "8.8.8.8" 51514)
      (login ++ [.shellRequest, .tick "", .tick "", .tick "", .tick "", .tick "", .recv [119, 103]]) = some s ∧
    ∃ bs t, Runs.Guarded (sessionStep {} (buildSink {} false)) (OwnStep (·.pc = .closing))
        { s with isServing := false } bs ∧
      Runs.run (sessionStep {} (buildSink {} false)) s (.hangUp :: bs) = some t ∧
        t.Complete (buildSink {} false) := by
  have hrun : (Runs.run (sessionStep {} (buildSink {} false))
      (.start {} "0b5e" "2026-01-01T00:00:10+00:00" "8.8.8.8" 51514)
      (login ++ [.shellRequest, .tick "", .tick "", .tick "", .tick "", .tick "", .recv [119, 103]])).isSome =
        true := by decide
  obtain ⟨s, hr⟩ := Option.isSome_iff_exists.mp hrun
  exact ⟨s, hr, (session_completes hr).1 (·.pc = .closing)⟩

end SentinelSsh.Honeypot
