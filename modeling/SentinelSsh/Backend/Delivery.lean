import SentinelSsh.Backend.Realtime

/-!
# What is broadcast to a dashboard

The messages that a run of the backend sends to a client, the events it accepts, and the broadcasts that
are still to be finished.
-/

namespace SentinelSsh.Backend

/-- The steps of a run of the backend. -/
abbrev History := List (Runs.Transition Server Action)

/-! ## Events -/

/-- The event that a request starts to broadcast. -/
def Server.accepts (env : Env) (s : Server) : Action → Option Snapshot
  | .request c r =>
    if ¬ requireAuth env.config s.users (s.cookies c) r.path ∧ dispatch r.method r.path = some .ingestEvent ∧
        authorized env.config r.token then
      r.snapshot
    else none
  | _ => none

/-- The events that were accepted. -/
def accepted (env : Env) (h : History) : List Snapshot :=
  h.filterMap fun t => t.before.accepts env t.action

/-! ## Messages -/

/-- The attack of a `new_attack` event. -/
def Message.attack? : Message → Option Snapshot
  | .newAttack snapshot => some snapshot
  | _ => none

/-- The incident of an `incident_update` event. -/
def Message.incident? : Message → Option Int
  | .incidentUpdate incidentId => some incidentId
  | _ => none

/-- The messages for a client among those of a step. -/
def Server.sentTo (s : Server) (c : Client) : List Message :=
  (s.outbox.filter (·.1 = c)).map (·.2)

/-- The messages that were sent to a client. -/
def sentTo (c : Client) (h : History) : List Message :=
  h.flatMap fun t => t.after.sentTo c

/-- The attacks a client has received. -/
def receivedAttacks (c : Client) (h : History) : List Snapshot :=
  (sentTo c h).filterMap Message.attack?

/-- The incidents a client has received. -/
def receivedIncidents (c : Client) (h : History) : List Int :=
  (sentTo c h).filterMap Message.incident?

/-- How often a client has received the counters. -/
def receivedStats (c : Client) (h : History) : Nat :=
  (sentTo c h).count .statsUpdate

/-! ## Broadcasts -/

/-- The incident an event announces: `if incident_id`. -/
def Snapshot.announced (snapshot : Snapshot) : Option Int :=
  snapshot.incidentId.filter (· ≠ 0)

/-- The attack that a thread has still to emit. -/
def Broadcast.waiting (b : Broadcast) : Option Snapshot :=
  match b.pc with
  | .attack => some b.snapshot
  | .stats | .incident => none

/-- The incident that a thread has still to emit, when the attack is out. -/
def Broadcast.announcing (b : Broadcast) : Option Int :=
  match b.pc with
  | .attack => none
  | .stats | .incident => b.snapshot.announced

/-- The counters are what a thread emits next. -/
def Broadcast.counting (b : Broadcast) : Bool :=
  b.pc = .stats

/-- The client neither connects nor disconnects in this step. -/
def Stays (c : Client) (_ : Server) (a : Action) : Prop :=
  a ≠ .connect c ∧ a ≠ .disconnect c

instance (c : Client) (s : Server) (a : Action) : Decidable (Stays c s a) :=
  inferInstanceAs (Decidable (_ ∧ _))

/-- What a client that is connected has received of the events that were accepted. -/
structure Delivered (env : Env) (c : Client) (s : Server) (h : History) : Prop where
  connected : s.connected.count c = 1
  /-- Each event was received once, or is still to be emitted. -/
  attacks : (receivedAttacks c h ++ s.broadcasts.filterMap Broadcast.waiting).Perm (accepted env h)
  /-- An incident comes after an attack of its own. -/
  incidents : (receivedIncidents c h ++ s.broadcasts.filterMap Broadcast.announcing).Subperm
    ((receivedAttacks c h).filterMap Snapshot.announced)
  /-- So do the counters. -/
  stats : receivedStats c h + s.broadcasts.countP Broadcast.counting ≤ (receivedAttacks c h).length

end SentinelSsh.Backend
