import SentinelSsh.Honeypot.SessionHandler

/-!
# Two threads on one record

`Moved` says what each step can do to a session; the invariants go through it. What a session promises
(its exec requests answered, its record delivered as a whole, its length bounded) holds exactly when
the requests of the client fall into the right part of the handler's way.
-/

namespace SentinelSsh.Honeypot

open Python

/-! ## What a step can do -/

/-- The steps of the handler that only move it on. -/
inductive Goes (config : HoneypotConfig) (sinks : List SinkName) (s : Session) : Action → Pc → Prop where
  | negotiated (h : s.pc = .negotiate) : Goes config sinks s .negotiated .version
  | negotiationFailed (h : s.pc = .negotiate) : Goes config sinks s .negotiationFailed .finalise
  | accepted (h : s.pc = .accept) : Goes config sinks s .acceptChannel .check
  | notAccepted (h : s.pc = .accept) : Goes config sinks s .acceptTimeout .finalise
  | hasExec {now : String} (h : s.pc = .check) (he : s.server.execCommands ≠ []) :
      Goes config sinks s (.tick now) (.exec 0)
  | noExec {now : String} (h : s.pc = .check) (he : s.server.execCommands = []) :
      Goes config sinks s (.tick now) .waitShell
  | execDone {now : String} {i : Nat} (h : s.pc = .exec i) (hi : s.server.execCommands.length ≤ i) :
      Goes config sinks s (.tick now) .execExit
  | waited {now : String} (h : s.pc = .waitShell) : Goes config sinks s (.tick now) .testShell
  | shellTimeout (h : s.pc = .waitShell) : Goes config sinks s .shellTimeout .testShell
  | hasShell {now : String} (h : s.pc = .testShell) : Goes config sinks s (.tick now) .welcome
  | noShell {now : String} (h : s.pc = .testShell) : Goes config sinks s (.tick now) .closing
  | shellFull {now : String} {buffer : List Char} (h : s.pc = .shellTop buffer)
      (hfull : config.maxCommands ≤ s.server.record.commands.length) :
      Goes config sinks s (.tick now) .closing
  | shellNext {now : String} {buffer : List Char} (h : s.pc = .shellTop buffer)
      (hroom : ¬ config.maxCommands ≤ s.server.record.commands.length) :
      Goes config sinks s (.tick now) (.shellRecv buffer)
  | late {buffer : List Char} (h : s.pc = .shellTop buffer) : Goes config sinks s .deadline .closing
  | received {buffer : List Char} {data : List UInt8} (h : s.pc = .shellRecv buffer) (hdata : data ≠ []) :
      Goes config sinks s (.recv data) (.shellChars buffer (Utf8.decode data))
  | ended {buffer : List Char} (h : s.pc = .shellRecv buffer) : Goes config sinks s (.recv []) .closing
  | recvTimeout {buffer : List Char} (h : s.pc = .shellRecv buffer) :
      Goes config sinks s .recvTimeout (.shellTop buffer)
  | chunkDone {now : String} {buffer : List Char} (h : s.pc = .shellChars buffer []) :
      Goes config sinks s (.tick now) (.shellTop buffer)
  | closed {now : String} (h : s.pc = .closing) : Goes config sinks s (.tick now) .finalise
  | raised (h : s.pc.isTry = true) : Goes config sinks s .fail .finalise
  | written {now : String} {k : Nat} (h : s.pc = .sink k) (hk : sinks.length ≤ k) :
      Goes config sinks s (.tick now) .closeTransport
  | finished {now : String} (h : s.pc = .closeTransport) : Goes config sinks s (.tick now) .done

/-- What a step does to a session. -/
inductive Moved (config : HoneypotConfig) (sinks : List SinkName) (s : Session) : Action → Session → Prop where
  | goes {a : Action} {pc : Pc} {isServing : Bool} (h : Goes config sinks s a pc) :
      Moved config sinks s a { s with pc := pc, isServing := isServing }
  | authPassword {username : String} {password : Text} : Moved config sinks s
      (.authPassword username password) { s with server := (s.server.checkAuthPassword username password).1 }
  | authPublickey {username : String} : Moved config sinks s
      (.authPublickey username) { s with server := (s.server.checkAuthPublickey username).1 }
  | network {a : Action} {isServing : Bool} {channels : Nat}
      (ha : (∃ kind, a = .openChannel kind) ∨ a = .hangUp) :
      Moved config sinks s a { s with isServing := isServing, channels := channels }
  | shellRequest : Moved config sinks s .shellRequest
      { s with server := s.server.checkChannelShellRequest }
  | execRequest {now : String} {command : Text} : Moved config sinks s (.execRequest now command)
      { s with server := s.server.checkChannelExecRequest now command }
  | version {v : Option String} (h : s.pc = .version) : Moved config sinks s (.readVersion v)
      { s with
        pc := .accept
        server := { s.server with record := { s.server.record with sshVersion := v } } }
  | execTurn {now : String} {i : Nat} {cmd : String} (h : s.pc = .exec i)
      (hcmd : s.server.execCommands[i]? = some cmd) : Moved config sinks s (.tick now)
      { s with pc := .exec (i + 1), sent := s.sent ++ [.exec cmd (execOutput cmd)] }
  | exitStatus {now : String} (h : s.pc = .execExit) : Moved config sinks s (.tick now)
      { s with pc := .closing, sent := s.sent ++ [.exitStatus 0] }
  | welcome {now : String} {greeting : List String} (h : s.pc = .welcome) :
      Moved config sinks s (.tick now)
        { s with pc := .shellTop [], sent := s.sent ++ greeting.map .shell }
  | shellTurn {now : String} {buffer : List Char} {ch : Char} {pending : List Char}
      (h : s.pc = .shellChars buffer (ch :: pending)) :
      Moved config sinks s (.tick now) (shellTick config s now buffer ch pending)
  | duration {d : Nat} (h : s.pc = .finalise) : Moved config sinks s (.setDuration d)
      { s with
        pc := .sink 0
        server := { s.server with record := { s.server.record with duration := d } } }
  | deliver {now : String} {k : Nat} {name : SinkName} (h : s.pc = .sink k) (hk : sinks[k]? = some name) :
      Moved config sinks s (.tick now)
        { s with pc := .sink (k + 1), delivered := s.delivered ++ [(name, s.server.record)] }

variable {config : HoneypotConfig} {sinks : List SinkName} {s s' : Session} {a : Action}

theorem moved_of_tick {now : String} (h : tick config sinks now s = some s') :
    Moved config sinks s (.tick now) s' := by
  unfold tick at h
  cases hpc : s.pc with
  | check =>
    simp only [hpc, Option.some.injEq] at h
    subst h
    by_cases he : s.server.execCommands = []
    · rw [if_neg (by simpa using he)]
      exact .goes (.noExec hpc he)
    · rw [if_pos (by simpa using he)]
      exact .goes (.hasExec hpc he)
  | exec i =>
    simp only [hpc] at h
    cases hi : s.server.execCommands[i]? with
    | some cmd =>
      simp only [hi, Option.some.injEq] at h
      exact h ▸ .execTurn hpc hi
    | none =>
      simp only [hi, Option.some.injEq] at h
      exact h ▸ .goes (.execDone hpc (List.getElem?_eq_none_iff.mp hi))
  | execExit =>
    simp only [hpc, Option.some.injEq] at h
    exact h ▸ .exitStatus hpc
  | waitShell =>
    simp only [hpc, Option.ite_none_right_eq_some, Option.some.injEq] at h
    exact h.2 ▸ .goes (.waited hpc)
  | testShell =>
    simp only [hpc, Option.some.injEq] at h
    subst h
    split
    · exact .goes (.hasShell hpc)
    · exact .goes (.noShell hpc)
  | welcome =>
    simp only [hpc, Option.some.injEq] at h
    exact h ▸ @Moved.welcome _ _ s _ [_, _] hpc
  | shellTop buffer =>
    simp only [hpc, Option.some.injEq] at h
    subst h
    split
    · next hfull => exact .goes (.shellFull hpc hfull)
    · next hroom => exact .goes (.shellNext hpc hroom)
  | shellChars buffer pending =>
    cases pending with
    | nil =>
      simp only [hpc, Option.some.injEq] at h
      exact h ▸ .goes (.chunkDone hpc)
    | cons ch pending =>
      simp only [hpc, Option.some.injEq] at h
      exact h ▸ .shellTurn hpc
  | closing =>
    simp only [hpc, Option.some.injEq] at h
    exact h ▸ .goes (.closed hpc)
  | sink k =>
    simp only [hpc] at h
    cases hk : sinks[k]? with
    | some name =>
      simp only [hk, Option.some.injEq] at h
      exact h ▸ .deliver hpc hk
    | none =>
      simp only [hk, Option.some.injEq] at h
      exact h ▸ .goes (.written hpc (List.getElem?_eq_none_iff.mp hk))
  | closeTransport =>
    simp only [hpc, Option.some.injEq] at h
    exact h ▸ .goes (.finished hpc)
  | negotiate => simp [hpc] at h
  | version => simp [hpc] at h
  | accept => simp [hpc] at h
  | shellRecv buffer => simp [hpc] at h
  | finalise => simp [hpc] at h
  | done => simp [hpc] at h

theorem moved_of_step (h : sessionStep config sinks s a = some s') : Moved config sinks s a s' := by
  cases a with
  | tick now => exact moved_of_tick h
  | authPassword username password =>
    simp only [sessionStep, Option.ite_none_right_eq_some, Option.some.injEq] at h
    exact h.2 ▸ .authPassword
  | authPublickey username =>
    simp only [sessionStep, Option.ite_none_right_eq_some, Option.some.injEq] at h
    exact h.2 ▸ .authPublickey
  | openChannel kind =>
    simp only [sessionStep, Option.ite_none_right_eq_some, Option.some.injEq] at h
    exact h.2 ▸ @Moved.network _ _ s _ s.isServing _ (Or.inl ⟨kind, rfl⟩)
  | shellRequest =>
    simp only [sessionStep, Option.ite_none_right_eq_some, Option.some.injEq] at h
    exact h.2 ▸ .shellRequest
  | execRequest now command =>
    simp only [sessionStep, Option.ite_none_right_eq_some, Option.some.injEq] at h
    exact h.2 ▸ .execRequest
  | hangUp =>
    simp only [sessionStep, Option.some.injEq] at h
    exact h ▸ @Moved.network _ _ s _ _ s.channels (Or.inr rfl)
  | negotiated =>
    simp only [sessionStep, Option.ite_none_right_eq_some, Option.some.injEq] at h
    exact h.2 ▸ @Moved.goes _ _ s _ _ s.isServing (.negotiated h.1)
  | negotiationFailed =>
    simp only [sessionStep, Option.ite_none_right_eq_some, Option.some.injEq] at h
    exact h.2 ▸ .goes (.negotiationFailed h.1)
  | readVersion v =>
    simp only [sessionStep, Option.ite_none_right_eq_some, Option.some.injEq] at h
    exact h.2 ▸ .version h.1
  | acceptChannel =>
    simp only [sessionStep, Option.ite_none_right_eq_some, Option.some.injEq, Bool.and_eq_true,
      decide_eq_true_eq] at h
    exact h.2 ▸ @Moved.goes _ _ s _ _ s.isServing (.accepted h.1.1)
  | acceptTimeout =>
    simp only [sessionStep, Option.ite_none_right_eq_some, Option.some.injEq] at h
    exact h.2 ▸ @Moved.goes _ _ s _ _ s.isServing (.notAccepted h.1)
  | shellTimeout =>
    simp only [sessionStep, Option.ite_none_right_eq_some, Option.some.injEq] at h
    exact h.2 ▸ @Moved.goes _ _ s _ _ s.isServing (.shellTimeout h.1)
  | recv data =>
    simp only [sessionStep] at h
    split at h
    · next buffer hpc =>
      simp only [Option.ite_none_right_eq_some, Option.some.injEq] at h
      obtain ⟨-, rfl⟩ := h
      by_cases hd : data = []
      · subst hd
        exact @Moved.goes _ _ s _ _ s.isServing (.ended hpc)
      · rw [if_neg hd]
        exact @Moved.goes _ _ s _ _ s.isServing (.received hpc hd)
    · exact absurd h (by simp)
  | recvTimeout =>
    simp only [sessionStep] at h
    split at h
    · next buffer hpc => exact Option.some.inj h ▸ @Moved.goes _ _ s _ _ s.isServing (.recvTimeout hpc)
    · exact absurd h (by simp)
  | deadline =>
    simp only [sessionStep] at h
    split at h
    · next buffer hpc => exact Option.some.inj h ▸ @Moved.goes _ _ s _ _ s.isServing (.late hpc)
    · exact absurd h (by simp)
  | fail =>
    simp only [sessionStep, Option.ite_none_right_eq_some, Option.some.injEq] at h
    exact h.2 ▸ @Moved.goes _ _ s _ _ s.isServing (.raised h.1)
  | setDuration d =>
    simp only [sessionStep, Option.ite_none_right_eq_some, Option.some.injEq] at h
    exact h.2 ▸ .duration h.1

/-! ## What the callbacks do to the record -/

/-- What a record has counted: attempts and commands. -/
def AttackRecord.size (r : AttackRecord) : Nat :=
  r.authAttempts + r.commands.length

namespace HoneypotServer

variable (server : HoneypotServer) (username now cmd : String) (password command : Text)

@[simp] theorem size_checkAuthPassword :
    (server.checkAuthPassword username password).1.record.size = server.record.size + 1 := by
  show server.record.authAttempts + 1 + server.record.commands.length = _
  rw [AttackRecord.size]
  omega

@[simp] theorem size_checkAuthPublickey :
    (server.checkAuthPublickey username).1.record.size = server.record.size + 1 := by
  show server.record.authAttempts + 1 + server.record.commands.length = _
  rw [AttackRecord.size]
  omega

@[simp] theorem commands_checkChannelExecRequest :
    (server.checkChannelExecRequest now command).record.commands =
      server.record.commands ++ [⟨now, execText command, .exec⟩] := rfl

@[simp] theorem execCommands_checkChannelExecRequest :
    (server.checkChannelExecRequest now command).execCommands =
      server.execCommands ++ [execText command] := rfl

@[simp] theorem size_checkChannelExecRequest :
    (server.checkChannelExecRequest now command).record.size = server.record.size + 1 := by
  show server.record.authAttempts + (server.record.commands ++ [_]).length = _
  rw [AttackRecord.size, List.length_append, List.length_singleton, Nat.add_assoc]

@[simp] theorem size_recordShell :
    (server.recordShell now cmd).record.size = server.record.size + 1 := by
  show server.record.authAttempts + (server.record.commands ++ [_]).length = _
  rw [AttackRecord.size, List.length_append, List.length_singleton, Nat.add_assoc]

end HoneypotServer

/-- A callback that adds to the record. -/
def Action.isRecording : Action → Bool
  | .authPassword .. => true
  | .authPublickey .. => true
  | .execRequest .. => true
  | _ => false

theorem recordedInTime_iff : RecordedInTime s a ↔ (a.isRecording = true → s.delivered = []) := by
  cases a <;> simp [RecordedInTime, Action.isRecording]

/-! ## Delivery of the record -/

/-- The sinks that have been written. -/
def Pc.written (sinks : List SinkName) : Pc → List SinkName
  | .sink k => sinks.take k
  | .closeTransport => sinks
  | .done => sinks
  | _ => []

theorem written_of_goes {pc : Pc} (hg : Goes config sinks s a pc) :
    pc.written sinks = s.pc.written sinks := by
  cases hg with
  | written h hk => rw [h, Pc.written, Pc.written, List.take_of_length_le hk]
  | raised h => cases hpc : s.pc <;> simp [hpc, Pc.isTry] at h <;> rfl
  | _ => simp_all [Pc.written]

/-- What a step does to the record and to what is delivered of it: nothing, a callback adds one to it,
the handler works on it before the first sink, or a sink is written. -/
theorem record_moved (hm : Moved config sinks s a s') :
    (s'.server.record = s.server.record ∧ s'.delivered = s.delivered ∧
        s'.pc.written sinks = s.pc.written sinks) ∨
      (a.isRecording = true ∧ s'.server.record.size = s.server.record.size + 1 ∧
        s'.delivered = s.delivered ∧ s'.pc = s.pc) ∨
      (s.pc.written sinks = [] ∧ s'.pc.written sinks = [] ∧ s'.delivered = s.delivered) ∨
      ∃ name, s'.server.record = s.server.record ∧
        s'.delivered = s.delivered ++ [(name, s.server.record)] ∧
        s'.pc.written sinks = s.pc.written sinks ++ [name] := by
  cases hm with
  | goes hg => exact Or.inl ⟨rfl, rfl, written_of_goes hg⟩
  | authPassword => exact Or.inr (Or.inl ⟨rfl, by simp, rfl, rfl⟩)
  | authPublickey => exact Or.inr (Or.inl ⟨rfl, by simp, rfl, rfl⟩)
  | network => exact Or.inl ⟨rfl, rfl, rfl⟩
  | shellRequest => exact Or.inl ⟨rfl, rfl, rfl⟩
  | execRequest => exact Or.inr (Or.inl ⟨rfl, by simp, rfl, rfl⟩)
  | version h => exact Or.inr (Or.inr (Or.inl ⟨by rw [h]; rfl, rfl, rfl⟩))
  | execTurn h => exact Or.inl ⟨rfl, rfl, by rw [h]; rfl⟩
  | exitStatus h => exact Or.inl ⟨rfl, rfl, by rw [h]; rfl⟩
  | welcome h => exact Or.inl ⟨rfl, rfl, by rw [h]; rfl⟩
  | shellTurn h =>
    refine Or.inr (Or.inr (Or.inl ⟨by rw [h]; rfl, ?_, rfl⟩))
    rw [shellTick]
    dsimp only
    split <;> rfl
  | duration h => exact Or.inr (Or.inr (Or.inl ⟨by rw [h]; rfl, by simp [Pc.written], rfl⟩))
  | @deliver now k name h hk =>
    refine Or.inr (Or.inr (Or.inr ⟨name, rfl, rfl, ?_⟩))
    rw [h, Pc.written, Pc.written, List.take_add_one, hk]
    rfl

/-- The record of every delivery is that of the session, or a smaller one. -/
structure DeliveryOk (sinks : List SinkName) (s : Session) : Prop where
  written : s.delivered.map (·.1) = s.pc.written sinks
  grown : ∀ d ∈ s.delivered, d.2 = s.server.record ∨ d.2.size < s.server.record.size

theorem DeliveryOk.eq_nil (h : DeliveryOk sinks s) (hpc : s.pc.written sinks = []) : s.delivered = [] :=
  List.map_eq_nil_iff.mp (h.written.trans hpc)

theorem DeliveryOk.moved (h : DeliveryOk sinks s) (hm : Moved config sinks s a s') :
    DeliveryOk sinks s' := by
  rcases record_moved hm with ⟨hrec, hd, hw⟩ | ⟨-, hsize, hd, hpc⟩ | ⟨hw, hw', hd⟩ |
    ⟨name, hrec, hd, hw⟩
  · exact ⟨by rw [hd, hw, h.written], by rw [hd, hrec]; exact h.grown⟩
  · refine ⟨by rw [hd, hpc, h.written], fun d hdm => Or.inr ?_⟩
    rw [hd] at hdm
    rcases h.grown d hdm with heq | hlt
    · rw [heq, hsize]
      exact Nat.lt_succ_self _
    · rw [hsize]
      exact hlt.trans (Nat.lt_succ_self _)
  · have hnil := h.eq_nil hw
    exact ⟨by rw [hd, hw', hnil]; rfl, by rw [hd, hnil]; simp⟩
  · refine ⟨by rw [hd, hw, List.map_append, h.written]; rfl, fun d hdm => ?_⟩
    rw [hd, List.mem_append, List.mem_singleton] at hdm
    rw [hrec]
    rcases hdm with hdm | rfl
    · exact h.grown d hdm
    · exact Or.inl rfl

/-- While callbacks record in time, every delivery is the record of the session. -/
theorem DeliveryOk.keep (h : DeliveryOk sinks s) (hall : ∀ d ∈ s.delivered, d.2 = s.server.record)
    (hg : RecordedInTime s a) (hm : Moved config sinks s a s') :
    ∀ d ∈ s'.delivered, d.2 = s'.server.record := by
  rcases record_moved hm with ⟨hrec, hd, -⟩ | ⟨ha, -, hd, -⟩ | ⟨hw, -, hd⟩ | ⟨name, hrec, hd, -⟩
  · rw [hd, hrec]
    exact hall
  · rw [hd, recordedInTime_iff.mp hg ha]
    simp
  · rw [hd, h.eq_nil hw]
    simp
  · intro d hdm
    rw [hd, List.mem_append, List.mem_singleton] at hdm
    rw [hrec]
    rcases hdm with hdm | rfl
    · exact hall d hdm
    · rfl

/-- A callback that records late leaves a delivery that lacks something. -/
theorem DeliveryOk.broken (h : DeliveryOk sinks s) (hg : ¬ RecordedInTime s a)
    (hm : Moved config sinks s a s') : ∃ d ∈ s'.delivered, d.2.size < s'.server.record.size := by
  rw [recordedInTime_iff, Classical.not_imp] at hg
  obtain ⟨ha, hne⟩ := hg
  obtain ⟨d, hdm⟩ := List.exists_mem_of_ne_nil _ hne
  have hle : d.2.size ≤ s.server.record.size := by
    rcases h.grown d hdm with heq | hlt
    · rw [heq]
    · exact hlt.le
  have hsame : s'.delivered = s.delivered ∧ s'.server.record.size = s.server.record.size + 1 := by
    cases hm with
    | authPassword => exact ⟨rfl, by simp⟩
    | authPublickey => exact ⟨rfl, by simp⟩
    | execRequest => exact ⟨rfl, by simp⟩
    | goes hgo => cases hgo <;> simp [Action.isRecording] at ha
    | network hn => rcases hn with ⟨kind, rfl⟩ | rfl <;> simp [Action.isRecording] at ha
    | _ => simp [Action.isRecording] at ha
  exact ⟨d, by rw [hsame.1]; exact hdm, by rw [hsame.2]; omega⟩

/-- What a delivery lacks, it lacks for good. -/
theorem DeliveryOk.lost (h : DeliveryOk sinks s)
    (hlost : ∃ d ∈ s.delivered, d.2.size < s.server.record.size) (hm : Moved config sinks s a s') :
    ∃ d ∈ s'.delivered, d.2.size < s'.server.record.size := by
  obtain ⟨d, hdm, hlt⟩ := hlost
  rcases record_moved hm with ⟨hrec, hd, -⟩ | ⟨-, hsize, hd, -⟩ | ⟨hw, -, -⟩ | ⟨name, hrec, hd, -⟩
  · exact ⟨d, by rw [hd]; exact hdm, by rw [hrec]; exact hlt⟩
  · exact ⟨d, by rw [hd]; exact hdm, by rw [hsize]; omega⟩
  · rw [h.eq_nil hw] at hdm
    exact absurd hdm (by simp)
  · exact ⟨d, by rw [hd]; exact List.mem_append_left _ hdm, by rw [hrec]; exact hlt⟩

/-- When a session is over, every sink was handed its whole record if and only if no callback recorded
an attempt or a command after the first sink was written. -/
theorem allDelivered_iff (config : HoneypotConfig) (sinks : List SinkName)
    (sessionId timestamp sourceIp : String) (sourcePort : Nat) (as : List Action) (t : Session)
    (hr : Runs.run (sessionStep config sinks) (.start config sessionId timestamp sourceIp sourcePort) as =
      some t) (hdone : t.pc = .done) :
    t.AllDelivered sinks ↔ Runs.Guarded (sessionStep config sinks) RecordedInTime
      (.start config sessionId timestamp sourceIp sourcePort) as := by
  have hstart : DeliveryOk sinks (.start config sessionId timestamp sourceIp sourcePort) :=
    ⟨rfl, by simp [Session.start]⟩
  have hok : DeliveryOk sinks t := Runs.run_invariant
    (fun s a s' h hs => h.moved (moved_of_step hs)) hstart hr
  have hcases := Runs.run_dichotomy (I := DeliveryOk sinks) (G := RecordedInTime)
    (A := fun s => ∀ d ∈ s.delivered, d.2 = s.server.record)
    (B := fun s => ∃ d ∈ s.delivered, d.2.size < s.server.record.size) (H := fun _ _ => True)
    (fun s a s' h hs => h.moved (moved_of_step hs))
    (fun s a s' h hall hg hs => h.keep hall hg (moved_of_step hs))
    (fun s a s' h _ hg hs => h.broken hg (moved_of_step hs))
    (fun s a s' h hlost _ hs => h.lost hlost (moved_of_step hs)) hstart (by simp [Session.start])
    (Runs.guarded_of_forall (fun _ _ => trivial) _ _) hr
  rcases hcases with ⟨hg, hall⟩ | ⟨hg, d, hdm, hlt⟩
  · refine iff_of_true ?_ hg
    have hwritten : t.delivered.map (·.1) = sinks := by
      rw [hok.written, hdone]
      rfl
    rw [Session.AllDelivered, ← hwritten, List.map_map]
    refine (List.map_congr_left fun d hdm => ?_).trans (List.map_id _) |>.symm
    exact Prod.ext rfl (hall d hdm).symm
  · refine iff_of_false (fun hall => ?_) hg
    rw [hall] at hdm
    obtain ⟨name, -, rfl⟩ := List.mem_map.mp hdm
    exact lt_irrefl _ hlt

/-- No step touches what the connection was accepted with. -/
theorem accepted_moved (hm : Moved config sinks s a s') (h : Accepted s.server.record) :
    Accepted s'.server.record := by
  cases hm with
  | @shellTurn now buffer ch pending hpc =>
    rw [shellTick]
    dsimp only
    cases (shellChar (prompt config.fakeHostname) buffer ch).command with
    | none => exact h
    | some cmd => exact ⟨h.sessionId, h.sourceIp, h.sourcePort⟩
  | _ => exact ⟨h.sessionId, h.sourceIp, h.sourcePort⟩

theorem delivered_moved (hm : Moved config sinks s a s') :
    s'.delivered = s.delivered ∨ ∃ name, s'.delivered = s.delivered ++ [(name, s.server.record)] := by
  cases hm with
  | deliver => exact Or.inr ⟨_, rfl⟩
  | _ => exact Or.inl rfl

/-- Every record a sink is handed is one the honeypot accepted a connection for. -/
theorem accepted_delivered {as : List Action} {t : Session} (hs : Accepted s.server.record)
    (hnil : s.delivered = []) (hr : Runs.run (sessionStep config sinks) s as = some t) :
    ∀ d ∈ t.delivered, Accepted d.2 := by
  have hinv : Accepted t.server.record ∧ ∀ d ∈ t.delivered, Accepted d.2 := by
    refine Runs.run_invariant (I := fun s => Accepted s.server.record ∧ ∀ d ∈ s.delivered, Accepted d.2)
      ?_ ⟨hs, by simp [hnil]⟩ hr
    rintro s a s' ⟨hacc, hall⟩ hstep
    have hm := moved_of_step hstep
    refine ⟨accepted_moved hm hacc, fun d hd => ?_⟩
    rcases delivered_moved hm with heq | ⟨name, heq⟩
    · exact hall d (heq ▸ hd)
    · rw [heq, List.mem_append, List.mem_singleton] at hd
      rcases hd with hd | rfl
      · exact hall d hd
      · exact hacc
  exact hinv.2

/-- When every sink was handed the whole record, what they store is what `multiSink` makes of it. -/
theorem stores_of_allDelivered (sink : SinkName → CaptureSink) (st : Stores)
    (h : s.AllDelivered sinks) : s.stores sink st = multiSink (sinks.map sink) st s.server.record := by
  rw [Session.stores, multiSink, h, List.foldl_map, List.foldl_map]

/-- The client runs a command and the session ends in order. -/
theorem allDelivered_iff_inOrder : ∃ t, Runs.run (sessionStep {} (buildSink {} false))
      (.start {} "0b5e" "2026-01-01T00:00:10+00:00" "8.8.8.8" 51514)
      (login ++ [.execRequest "2026-01-01T00:00:11+00:00" (.str "id"), .tick "", .tick "", .tick "", .tick "",
        .tick "", .setDuration 1250, .tick "", .tick "", .tick "", .tick ""]) = some t ∧
      t.AllDelivered (buildSink {} false) := by
  have hany : ((Runs.run (sessionStep {} (buildSink {} false))
      (.start {} "0b5e" "2026-01-01T00:00:10+00:00" "8.8.8.8" 51514)
      (login ++ [.execRequest "2026-01-01T00:00:11+00:00" (.str "id"), .tick "", .tick "", .tick "", .tick "",
        .tick "", .setDuration 1250, .tick "", .tick "", .tick "", .tick ""])).any (·.pc = .done)) =
      true := by decide
  obtain ⟨t, hr, hdone⟩ := (Option.any_eq_true _ _).mp hany
  refine ⟨t, hr, (allDelivered_iff _ _ _ _ _ _ _ t hr (of_decide_eq_true hdone)).mpr ?_⟩
  decide

/-- A second exec request arrives between the first sink and the second. -/
theorem not_allDelivered_late :
    ¬ ∀ (config : HoneypotConfig) (sinks : List SinkName) (sessionId timestamp sourceIp : String)
        (sourcePort : Nat) (as : List Action) (t : Session),
        Runs.run (sessionStep config sinks) (.start config sessionId timestamp sourceIp sourcePort) as =
          some t → t.pc = .done → t.AllDelivered sinks := by
  intro h
  have hany : ((Runs.run (sessionStep {} (buildSink {} false))
      (.start {} "0b5e" "2026-01-01T00:00:10+00:00" "8.8.8.8" 51514)
      (login ++ [.tick "", .shellTimeout, .tick "", .tick "", .setDuration 1250, .tick "",
        .openChannel "session", .execRequest "2026-01-01T00:00:41+00:00" (.str "id"), .tick "", .tick "",
        .tick ""])).any fun t =>
      t.pc = .done && t.delivered ≠ (buildSink {} false).map (·, t.server.record)) = true := by
    decide
  obtain ⟨t, hr, ht⟩ := (Option.any_eq_true _ _).mp hany
  rw [Bool.and_eq_true] at ht
  exact of_decide_eq_true ht.2 (h _ _ _ _ _ _ _ t hr (of_decide_eq_true ht.1))

/-! ## Answers to exec requests -/

/-- An answer of `_handle_exec`. -/
def Sent.isAnswer : Sent → Bool
  | .exec .. => true
  | _ => false

/-- Output of the emulated shell. -/
def Sent.isShell : Sent → Bool
  | .shell _ => true
  | _ => false

/-- The number of exec requests that were answered. -/
def Session.answered (s : Session) : Nat :=
  s.sent.countP Sent.isAnswer

theorem countP_answers (cmds : List String) : (answers cmds).countP Sent.isAnswer = cmds.length := by
  rw [answers, List.countP_map]
  exact List.countP_eq_length.mpr fun _ _ => rfl

theorem countP_of_isShell {sent : List Sent} (h : ∀ x ∈ sent, x.isShell = true) :
    sent.countP Sent.isAnswer = 0 := by
  rw [List.countP_eq_zero]
  intro x hx
  have := h x hx
  cases x <;> simp_all [Sent.isShell, Sent.isAnswer]

/-- What has been sent when the handler is at `pc` and `cmds` were accepted. -/
def SentOk (cmds : List String) (sent : List Sent) : Pc → Prop
  | .negotiate => sent = []
  | .version => sent = []
  | .accept => sent = []
  | .check => sent = []
  | .exec i => i ≤ cmds.length ∧ sent = answers (cmds.take i)
  | .execExit => ∃ n ≤ cmds.length, sent = answers (cmds.take n)
  | .closing => (∃ n ≤ cmds.length, sent = answers (cmds.take n) ++ [.exitStatus 0]) ∨
      ∀ x ∈ sent, x.isShell = true
  | .finalise => True
  | .sink _ => True
  | .closeTransport => True
  | .done => True
  | _ => ∀ x ∈ sent, x.isShell = true

theorem SentOk.accept {cmds : List String} {sent : List Sent} {pc : Pc} (h : SentOk cmds sent pc)
    (cmd : String) : SentOk (cmds ++ [cmd]) sent pc := by
  have htake : ∀ n ≤ cmds.length, (cmds ++ [cmd]).take n = cmds.take n := fun n hn =>
    List.take_append_of_le_length hn
  have hle : ∀ n ≤ cmds.length, n ≤ (cmds ++ [cmd]).length := fun n hn => by
    rw [List.length_append]
    omega
  cases pc with
  | exec i => exact ⟨hle i h.1, by rw [htake i h.1]; exact h.2⟩
  | execExit =>
    obtain ⟨n, hn, hs⟩ := h
    exact ⟨n, hle n hn, by rw [htake n hn]; exact hs⟩
  | closing =>
    rcases h with ⟨n, hn, hs⟩ | h
    · exact Or.inl ⟨n, hle n hn, by rw [htake n hn]; exact hs⟩
    · exact Or.inr h
  | _ => exact h

/-- The handler's way through the session is reflected in what it has sent. -/
def Session.SentOk (s : Session) : Prop :=
  Honeypot.SentOk s.server.execCommands s.sent s.pc

theorem sentOk_goes {pc : Pc} (h : s.SentOk) (hg : Goes config sinks s a pc) :
    SentOk s.server.execCommands s.sent pc := by
  rw [Session.SentOk] at h
  cases hg with
  | negotiated hpc => rw [hpc] at h; exact h
  | accepted hpc => rw [hpc] at h; exact h
  | hasExec hpc =>
    rw [hpc] at h
    exact ⟨Nat.zero_le _, h⟩
  | noExec hpc =>
    rw [hpc] at h
    rw [show s.sent = [] from h]
    exact fun x hx => absurd hx (by simp)
  | execDone hpc => rw [hpc] at h; exact ⟨_, h⟩
  | waited hpc => rw [hpc] at h; exact h
  | shellTimeout hpc => rw [hpc] at h; exact h
  | hasShell hpc => rw [hpc] at h; exact h
  | noShell hpc => rw [hpc] at h; exact Or.inr h
  | shellFull hpc => rw [hpc] at h; exact Or.inr h
  | shellNext hpc => rw [hpc] at h; exact h
  | late hpc => rw [hpc] at h; exact Or.inr h
  | received hpc => rw [hpc] at h; exact h
  | ended hpc => rw [hpc] at h; exact Or.inr h
  | recvTimeout hpc => rw [hpc] at h; exact h
  | chunkDone hpc => rw [hpc] at h; exact h
  | negotiationFailed => trivial
  | notAccepted => trivial
  | closed => trivial
  | raised => trivial
  | written => trivial
  | finished => trivial

theorem isShell_append {sent : List Sent} (h : ∀ x ∈ sent, x.isShell = true) (texts : List String) :
    ∀ x ∈ sent ++ texts.map .shell, x.isShell = true := by
  intro x hx
  rw [List.mem_append] at hx
  rcases hx with hx | hx
  · exact h x hx
  · obtain ⟨text, -, rfl⟩ := List.mem_map.mp hx
    rfl

theorem Session.SentOk.moved (h : s.SentOk) (hm : Moved config sinks s a s') : s'.SentOk := by
  cases hm with
  | goes hg => exact sentOk_goes (s := s) h hg
  | authPassword => exact h
  | authPublickey => exact h
  | network => exact h
  | shellRequest => exact h
  | execRequest => exact h.accept _
  | version hpc => rw [Session.SentOk, hpc] at h; exact h
  | @execTurn now i cmd hpc hcmd =>
    rw [Session.SentOk, hpc] at h
    obtain ⟨hi, hs⟩ := h
    have hlt : i < s.server.execCommands.length := by
      rw [List.getElem?_eq_some_iff] at hcmd
      exact hcmd.1
    refine ⟨hlt, ?_⟩
    show s.sent ++ [Sent.exec cmd (execOutput cmd)] = answers (s.server.execCommands.take (i + 1))
    rw [hs, List.take_add_one, hcmd, answers, answers, List.map_append]
    rfl
  | exitStatus hpc =>
    rw [Session.SentOk, hpc] at h
    obtain ⟨n, hn, hs⟩ := h
    exact Or.inl ⟨n, hn, by show s.sent ++ _ = _; rw [hs]⟩
  | welcome hpc =>
    rw [Session.SentOk, hpc] at h
    exact isShell_append h _
  | @shellTurn now buffer ch pending hpc =>
    rw [Session.SentOk, hpc] at h
    have hsent := isShell_append h (shellChar (prompt config.fakeHostname) buffer ch).sent
    rw [Session.SentOk, shellTick]
    dsimp only
    split
    · exact Or.inr hsent
    · exact hsent
  | duration => trivial
  | deliver => trivial

theorem Session.SentOk.answered_le (h : s.SentOk) (htry : s.pc.isTry = true) :
    s.answered ≤ s.server.execCommands.length := by
  rw [Session.SentOk] at h
  rw [Session.answered]
  have htake : ∀ n, (answers (s.server.execCommands.take n)).countP Sent.isAnswer ≤
      s.server.execCommands.length := fun n => by
    rw [countP_answers, List.length_take]
    omega
  cases hpc : s.pc with
  | negotiate => rw [hpc] at h; rw [show s.sent = [] from h]; exact Nat.zero_le _
  | version => rw [hpc] at h; rw [show s.sent = [] from h]; exact Nat.zero_le _
  | accept => rw [hpc] at h; rw [show s.sent = [] from h]; exact Nat.zero_le _
  | check => rw [hpc] at h; rw [show s.sent = [] from h]; exact Nat.zero_le _
  | exec i => rw [hpc] at h; rw [h.2]; exact htake i
  | execExit =>
    rw [hpc] at h
    obtain ⟨n, -, hs⟩ := h
    rw [hs]
    exact htake n
  | closing =>
    rw [hpc] at h
    rcases h with ⟨n, -, hs⟩ | h
    · rw [hs, List.countP_append]
      exact htake n
    · rw [countP_of_isShell h]
      exact Nat.zero_le _
  | finalise => rw [hpc] at htry; exact absurd htry (by decide)
  | sink k => rw [hpc] at htry; exact absurd htry (by simp [Pc.isTry])
  | closeTransport => rw [hpc] at htry; exact absurd htry (by decide)
  | done => rw [hpc] at htry; exact absurd htry (by decide)
  | waitShell => rw [hpc] at h; rw [countP_of_isShell h]; exact Nat.zero_le _
  | testShell => rw [hpc] at h; rw [countP_of_isShell h]; exact Nat.zero_le _
  | welcome => rw [hpc] at h; rw [countP_of_isShell h]; exact Nat.zero_le _
  | shellTop => rw [hpc] at h; rw [countP_of_isShell h]; exact Nat.zero_le _
  | shellRecv => rw [hpc] at h; rw [countP_of_isShell h]; exact Nat.zero_le _
  | shellChars => rw [hpc] at h; rw [countP_of_isShell h]; exact Nat.zero_le _

/-- At `channel.close`, everything was answered exactly when the answers are as many as the requests. -/
theorem Session.SentOk.answered_iff (h : s.SentOk) (hpc : s.pc = .closing) :
    s.Answered ↔ s.answered = s.server.execCommands.length := by
  rw [Session.SentOk, hpc] at h
  rw [Session.Answered, Session.answered]
  rcases h with ⟨n, hn, hs⟩ | h
  · have hcount : s.sent.countP Sent.isAnswer = n := by
      rw [hs, List.countP_append, countP_answers, List.length_take]
      simp only [List.countP_singleton, Sent.isAnswer, Bool.false_eq_true, if_false]
      omega
    rw [hcount]
    constructor
    · intro hans
      by_cases hne : s.server.execCommands = []
      · rw [hne] at hn ⊢
        exact Nat.le_zero.mp hn
      · have heq := congrArg (List.countP Sent.isAnswer) (hans hne)
        rw [hcount, List.countP_append, countP_answers] at heq
        exact heq
    · rintro rfl -
      rw [hs, List.take_length]
  · rw [countP_of_isShell h]
    constructor
    · intro hans
      by_contra hne
      have hcmds : s.server.execCommands ≠ [] := fun hnil => hne (by rw [hnil]; rfl)
      have hmem : Sent.exitStatus 0 ∈ s.sent := by
        rw [hans hcmds]
        simp
      exact absurd (h _ hmem) (by decide)
    · intro hlen hne
      exact absurd (List.length_eq_zero_iff.mp hlen.symm) hne

theorem countP_append_shell (sent : List Sent) (texts : List String) :
    (sent ++ texts.map Sent.shell).countP Sent.isAnswer = sent.countP Sent.isAnswer := by
  have hzero : (texts.map Sent.shell).countP Sent.isAnswer = 0 := by
    refine countP_of_isShell fun x hx => ?_
    obtain ⟨text, -, rfl⟩ := List.mem_map.mp hx
    rfl
  rw [List.countP_append, hzero, Nat.add_zero]

/-- The three parts of the handler's way: it looks for exec requests, it does something else on the
channel, the channel is closed. -/
def Pc.phase (pc : Pc) : Nat :=
  if pc.answersExec then 0 else if pc.isTry then 1 else 2

theorem phase_eq_zero {pc : Pc} : pc.phase = 0 ↔ pc.answersExec = true := by
  cases pc <;> simp [Pc.phase, Pc.answersExec, Pc.isTry]

theorem phase_eq_two {pc : Pc} : pc.phase = 2 ↔ pc.isTry = false := by
  cases pc <;> simp [Pc.phase, Pc.answersExec, Pc.isTry]

theorem phase_le_of_goes {pc : Pc} (hg : Goes config sinks s a pc) : s.pc.phase ≤ pc.phase := by
  have hle : s.pc.phase ≤ 2 := by
    unfold Pc.phase
    split_ifs <;> decide
  cases hg with
  | raised => exact hle
  | _ => simp_all [Pc.phase, Pc.answersExec, Pc.isTry]

/-- The handler never goes back to an earlier part. -/
theorem phase_le_of_moved (hm : Moved config sinks s a s') : s.pc.phase ≤ s'.pc.phase := by
  cases hm with
  | goes hg => exact phase_le_of_goes hg
  | version h => simp [h, Pc.phase, Pc.answersExec]
  | execTurn h => simp [h, Pc.phase, Pc.answersExec]
  | exitStatus h => simp [h, Pc.phase, Pc.answersExec, Pc.isTry]
  | welcome h => simp [h, Pc.phase, Pc.answersExec, Pc.isTry]
  | shellTurn h =>
    rw [shellTick]
    dsimp only
    split <;> simp [h, Pc.phase, Pc.answersExec, Pc.isTry]
  | duration h => simp [h, Pc.phase, Pc.answersExec, Pc.isTry]
  | deliver h => simp [h, Pc.phase, Pc.answersExec, Pc.isTry]
  | _ => exact le_rfl

/-- How a step that is no exec request changes the requests and their answers. -/
theorem answered_moved (hm : Moved config sinks s a s') (ha : ∀ now command, a ≠ .execRequest now command) :
    s'.server.execCommands = s.server.execCommands ∧
      (s.pc.phase ≠ 0 → s'.answered = s.answered) := by
  cases hm with
  | execRequest => exact absurd rfl (ha _ _)
  | execTurn hpc => exact ⟨rfl, fun h => absurd (by rw [hpc]; rfl) h⟩
  | exitStatus =>
    refine ⟨rfl, fun _ => ?_⟩
    rw [Session.answered, Session.answered, List.countP_append]
    rfl
  | welcome => exact ⟨rfl, fun _ => countP_append_shell _ _⟩
  | @shellTurn now buffer ch pending =>
    refine ⟨?_, fun _ => countP_append_shell _ _⟩
    rw [shellTick]
    cases (shellChar (prompt config.fakeHostname) buffer ch).command <;> rfl
  | _ => exact ⟨rfl, fun _ => rfl⟩

/-- The handler turns from exec requests to something else with every request answered. -/
theorem Session.SentOk.leaves (h : s.SentOk) (hm : Moved config sinks s a s') (hpc : s.pc.phase = 0)
    (hpc' : s'.pc.phase = 1) : s'.answered = s'.server.execCommands.length := by
  rw [Session.SentOk] at h
  cases hm with
  | goes hg =>
    cases hg with
    | noExec hp he =>
      rw [hp] at h
      rw [Session.answered, show s.sent = [] from h, he]
      rfl
    | execDone hp hi =>
      rw [hp] at h
      rw [Session.answered, h.2, countP_answers, List.length_take]
      exact Nat.min_eq_right hi
    | _ => simp_all [Pc.phase, Pc.answersExec, Pc.isTry]
  | authPassword => exact absurd (hpc.symm.trans hpc') (by decide)
  | authPublickey => exact absurd (hpc.symm.trans hpc') (by decide)
  | network => exact absurd (hpc.symm.trans hpc') (by decide)
  | shellRequest => exact absurd (hpc.symm.trans hpc') (by decide)
  | execRequest => exact absurd (hpc.symm.trans hpc') (by decide)
  | _ => simp_all [Pc.phase, Pc.answersExec, Pc.isTry]

/-- An exec request adds one request and no answer. -/
theorem answered_execRequest {now : String} {command : Text}
    (hm : Moved config sinks s (.execRequest now command) s') : s'.pc = s.pc ∧
      s'.answered = s.answered ∧ s'.server.execCommands.length = s.server.execCommands.length + 1 := by
  cases hm with
  | execRequest =>
    refine ⟨rfl, rfl, ?_⟩
    show (s.server.execCommands ++ [_]).length = _
    rw [List.length_append, List.length_singleton]
  | goes hgo => cases hgo
  | network hn => rcases hn with ⟨kind, hn⟩ | hn <;> exact absurd hn (by simp)

/-- While requests come in time, a handler that is past them has answered them all. -/
theorem Session.SentOk.keeps (h : s.SentOk)
    (hall : s.pc.phase = 1 → s.answered = s.server.execCommands.length) (hg : ExecInTime s a)
    (hm : Moved config sinks s a s') (hphase : s'.pc.phase = 1) :
    s'.answered = s'.server.execCommands.length := by
  have hle := phase_le_of_moved hm
  by_cases h0 : s.pc.phase = 0
  · exact h.leaves hm h0 hphase
  · have h1 : s.pc.phase = 1 := by omega
    have ha : ∀ now command, a ≠ .execRequest now command := by
      rintro now command rfl
      exact h0 (phase_eq_zero.mpr hg)
    obtain ⟨hcmds, hans⟩ := answered_moved hm ha
    rw [hcmds, hans h0]
    exact hall h1

/-- A late request is not answered. -/
theorem Session.SentOk.late (h : s.SentOk) (hg : ¬ ExecInTime s a) (hm : Moved config sinks s a s') :
    s'.pc.phase ≠ 0 ∧ (s'.pc.phase = 1 → s'.answered < s'.server.execCommands.length) := by
  cases a with
  | execRequest now command =>
    obtain ⟨hpc, hans, hlen⟩ := answered_execRequest hm
    rw [hpc, hans, hlen]
    refine ⟨fun h0 => hg (phase_eq_zero.mp h0), fun h1 => ?_⟩
    have htry : s.pc.isTry = true := by
      by_contra hne
      rw [Bool.not_eq_true] at hne
      exact absurd (h1.symm.trans (phase_eq_two.mpr hne)) (by decide)
    exact Nat.lt_succ_of_le (h.answered_le htry)
  | _ => exact absurd trivial hg

/-- What was not answered never will be. -/
theorem unanswered_moved (h0 : s.pc.phase ≠ 0)
    (hlt : s.pc.phase = 1 → s.answered < s.server.execCommands.length)
    (hm : Moved config sinks s a s') :
    s'.pc.phase ≠ 0 ∧ (s'.pc.phase = 1 → s'.answered < s'.server.execCommands.length) := by
  have hle := phase_le_of_moved hm
  refine ⟨by omega, fun hphase => ?_⟩
  have h1 : s.pc.phase = 1 := by omega
  by_cases ha : ∃ now command, a = .execRequest now command
  · obtain ⟨now, command, rfl⟩ := ha
    obtain ⟨-, hans, hlen⟩ := answered_execRequest hm
    rw [hans, hlen]
    exact Nat.lt_succ_of_lt (hlt h1)
  · obtain ⟨hcmds, hans⟩ := answered_moved hm fun now command he => ha ⟨now, command, he⟩
    rw [hcmds, hans h0]
    exact hlt h1

/-- When the handler is about to close the channel, it has answered every exec request accepted so far
if and only if each of them was accepted before it looked, or while it was answering others. -/
theorem answered_iff_inTime (config : HoneypotConfig) (sinks : List SinkName)
    (sessionId timestamp sourceIp : String) (sourcePort : Nat) (as : List Action) (t : Session)
    (hr : Runs.run (sessionStep config sinks) (.start config sessionId timestamp sourceIp sourcePort) as =
      some t) (hclosing : t.pc = .closing) :
    t.Answered ↔ Runs.Guarded (sessionStep config sinks) ExecInTime
      (.start config sessionId timestamp sourceIp sourcePort) as := by
  have hstart : (Session.start config sessionId timestamp sourceIp sourcePort).SentOk := rfl
  have hok : t.SentOk := Runs.run_invariant (fun s a s' h hs => h.moved (moved_of_step hs)) hstart hr
  have hcases := Runs.run_dichotomy (I := Session.SentOk) (G := ExecInTime)
    (A := fun s => s.pc.phase = 1 → s.answered = s.server.execCommands.length)
    (B := fun s => s.pc.phase ≠ 0 ∧ (s.pc.phase = 1 → s.answered < s.server.execCommands.length))
    (H := fun _ _ => True)
    (fun s a s' h hs => h.moved (moved_of_step hs))
    (fun s a s' h hall hg hs => h.keeps hall hg (moved_of_step hs))
    (fun s a s' h _ hg hs => h.late hg (moved_of_step hs))
    (fun s a s' _ hb _ hs => unanswered_moved hb.1 hb.2 (moved_of_step hs)) hstart
    (fun h => absurd (show 0 = 1 from h) (by decide)) (Runs.guarded_of_forall (fun _ _ => trivial) _ _) hr
  have hphase : t.pc.phase = 1 := by
    rw [hclosing]
    rfl
  rw [hok.answered_iff hclosing]
  rcases hcases with ⟨hg, hall⟩ | ⟨hg, -, hlt⟩
  · exact iff_of_true (hall hphase) hg
  · exact iff_of_false (hlt hphase).ne hg

/-- An exec request that arrives with the channel is answered. -/
theorem answered_iff_inTime_early : ∃ t, Runs.run (sessionStep {} (buildSink {} false))
      (.start {} "0b5e" "2026-01-01T00:00:10+00:00" "8.8.8.8" 51514)
      (login ++ [.execRequest "2026-01-01T00:00:11+00:00" (.str "id"), .tick "", .tick "", .tick "",
        .tick ""]) = some t ∧ t.Answered := by
  have hany : ((Runs.run (sessionStep {} (buildSink {} false))
      (.start {} "0b5e" "2026-01-01T00:00:10+00:00" "8.8.8.8" 51514)
      (login ++ [.execRequest "2026-01-01T00:00:11+00:00" (.str "id"), .tick "", .tick "", .tick "",
        .tick ""])).any (·.pc = .closing)) = true := by decide
  obtain ⟨t, hr, hclosing⟩ := (Option.any_eq_true _ _).mp hany
  refine ⟨t, hr, (answered_iff_inTime _ _ _ _ _ _ _ t hr (of_decide_eq_true hclosing)).mpr ?_⟩
  decide

/-- An exec request that arrives one round trip after the channel is not. -/
theorem not_answered_roundTrip :
    ¬ ∀ (config : HoneypotConfig) (sinks : List SinkName) (sessionId timestamp sourceIp : String)
        (sourcePort : Nat) (as : List Action) (t : Session),
        Runs.run (sessionStep config sinks) (.start config sessionId timestamp sourceIp sourcePort) as =
          some t → t.pc = .closing → t.Answered := by
  intro h
  have hany : ((Runs.run (sessionStep {} (buildSink {} false))
      (.start {} "0b5e" "2026-01-01T00:00:10+00:00" "8.8.8.8" 51514)
      (login ++ [.tick "", .execRequest "2026-01-01T00:00:11+00:00" (.str "id"), .shellTimeout,
        .tick ""])).any fun t =>
      t.pc = .closing && (t.server.execCommands ≠ [] && t.sent = [])) = true := by decide
  obtain ⟨t, hr, ht⟩ := (Option.any_eq_true _ _).mp hany
  rw [Bool.and_eq_true, Bool.and_eq_true] at ht
  have hans := h _ _ _ _ _ _ _ t hr (of_decide_eq_true ht.1) (of_decide_eq_true ht.2.1)
  rw [of_decide_eq_true ht.2.2] at hans
  exact absurd hans (by simp)

end SentinelSsh.Honeypot
