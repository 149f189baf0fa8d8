import Mathlib.Algebra.Order.Group.Multiset
import Mathlib.Tactic.Abel
import SentinelSsh.Backend.Delivery
import SentinelSsh.Backend.Proofs.AuthProofs

/-!
# No event is lost or sent twice

A step changes one broadcast: a request adds one (`handle_of_accepts`), and a thread moves one from a
stage to the next and emits what it had for it (`sentTo_advance`). So what a connected client has received
and what is still to be emitted make up the events that were accepted (`delivered_once`), in any order of
the steps.
-/

namespace SentinelSsh.Backend

variable {env : Env} {s s' : Server} {c : Client} {h : History}

/-! ## Messages of a step -/

/-- The message of an event that is broadcast. -/
def Message.isEvent : Message → Bool
  | .newAttack _ | .statsUpdate | .incidentUpdate _ => true
  | _ => false

/-- An answer is no event. -/
theorem isEvent_of_mem_respond {m : Message} (hm : m.isEvent = false) (d : Client) :
    ∀ x ∈ (s.respond d m).sentTo c, x.isEvent = false := by
  intro x hx
  obtain ⟨y, hy, rfl⟩ := List.mem_map.mp hx
  obtain rfl := List.mem_singleton.mp (List.mem_of_mem_filter hy)
  exact hm

theorem sentTo_emit (m : Message) :
    ((s.emit m).filter (·.1 = c)).map (·.2) = List.replicate (s.connected.count c) m := by
  unfold Server.emit
  induction s.connected with
  | nil => rfl
  | cons d connected ih =>
    by_cases hd : d = c
    · simp only [List.map_cons, hd, List.filter_cons_of_pos, decide_true, List.count_cons_self, ih,
        List.replicate_succ]
    · simp only [List.map_cons, hd, List.filter_cons_of_neg, decide_false, Bool.false_eq_true,
        not_false_eq_true, List.count_cons_of_ne, ne_eq, ih]

/-! ## Histories -/

section Append

variable (h : History) (t : Runs.Transition Server Action)

theorem accepted_append : accepted env (h ++ [t]) = accepted env h ++ (t.before.accepts env t.action).toList := by
  rw [accepted, List.filterMap_append]
  cases ha : t.before.accepts env t.action with
  | none => simp [accepted, ha]
  | some snapshot => simp [accepted, ha]

theorem sentTo_append : sentTo c (h ++ [t]) = sentTo c h ++ t.after.sentTo c := by
  rw [sentTo, List.flatMap_append, List.flatMap_singleton]
  rfl

theorem receivedAttacks_append :
    receivedAttacks c (h ++ [t]) = receivedAttacks c h ++ (t.after.sentTo c).filterMap Message.attack? := by
  rw [receivedAttacks, sentTo_append, List.filterMap_append]
  rfl

theorem receivedIncidents_append :
    receivedIncidents c (h ++ [t]) = receivedIncidents c h ++ (t.after.sentTo c).filterMap Message.incident? := by
  rw [receivedIncidents, sentTo_append, List.filterMap_append]
  rfl

theorem receivedStats_append :
    receivedStats c (h ++ [t]) = receivedStats c h + (t.after.sentTo c).count .statsUpdate := by
  rw [receivedStats, sentTo_append, List.count_append]
  rfl

end Append

/-! ## Steps without events -/

/-- Messages that are no events are not received as one. -/
theorem noEvents {l : List Message} (hl : ∀ m ∈ l, m.isEvent = false) :
    l.filterMap Message.attack? = [] ∧ l.filterMap Message.incident? = [] ∧ l.count .statsUpdate = 0 := by
  refine ⟨List.filterMap_eq_nil_iff.mpr ?attacks, List.filterMap_eq_nil_iff.mpr ?incidents,
    List.count_eq_zero.mpr ?stats⟩
  case attacks =>
    intro m hm
    cases m with
    | newAttack snapshot => cases hl _ hm
    | _ => rfl
  case incidents =>
    intro m hm
    cases m with
    | incidentUpdate incidentId => cases hl _ hm
    | _ => rfl
  case stats => exact fun hm => absurd (hl _ hm) (by decide)

theorem Delivered.silent (hd : Delivered env c s h) {a : Action} (hconnected : s'.connected.count c = 1)
    (hbroadcasts : s'.broadcasts = s.broadcasts) (haccepts : s.accepts env a = none)
    (hsent : ∀ m ∈ s'.sentTo c, m.isEvent = false) : Delivered env c s' (h ++ [⟨s, a, s'⟩]) := by
  obtain ⟨hattacks, hincidents, hstats⟩ := noEvents hsent
  constructor
  case connected => exact hconnected
  case attacks =>
    rw [receivedAttacks_append, accepted_append, hattacks, haccepts, hbroadcasts, List.append_nil,
      Option.toList_none, List.append_nil]
    exact hd.attacks
  case incidents =>
    rw [receivedIncidents_append, receivedAttacks_append, hincidents, hattacks, hbroadcasts, List.append_nil,
      List.append_nil]
    exact hd.incidents
  case stats =>
    rw [receivedStats_append, receivedAttacks_append, hstats, hattacks, hbroadcasts, List.append_nil]
    exact hd.stats

/-! ## Requests -/

/-- An accepted event starts a broadcast. -/
theorem Delivered.accept (hd : Delivered env c s h) {a : Action} {poster : Client} {snapshot : Snapshot}
    (hconnected : s'.connected = s.connected)
    (hbroadcasts : s'.broadcasts = s.broadcasts ++ [{ poster := poster, snapshot := snapshot }])
    (haccepts : s.accepts env a = some snapshot) (houtbox : s'.outbox = []) :
    Delivered env c s' (h ++ [⟨s, a, s'⟩]) := by
  have hsent : s'.sentTo c = [] := by rw [Server.sentTo, houtbox]; rfl
  constructor
  case connected => rw [hconnected, hd.connected]
  case attacks =>
    rw [receivedAttacks_append, accepted_append, hsent, haccepts, hbroadcasts, List.filterMap_nil,
      List.append_nil, List.filterMap_append, ← List.append_assoc]
    exact hd.attacks.append_right [snapshot]
  case incidents =>
    rw [receivedIncidents_append, receivedAttacks_append, hsent, hbroadcasts, List.filterMap_nil,
      List.filterMap_nil, List.append_nil, List.append_nil, List.filterMap_append]
    exact (List.append_nil _).symm ▸ hd.incidents
  case stats =>
    rw [receivedStats_append, receivedAttacks_append, hsent, hbroadcasts, List.filterMap_nil, List.append_nil,
      List.countP_append]
    exact hd.stats

/-- An answer that starts no broadcast. -/
def Server.Answers (s s' : Server) (c : Client) : Prop :=
  s'.connected = s.connected ∧ s'.broadcasts = s.broadcasts ∧ ∀ m ∈ s'.sentTo c, m.isEvent = false

theorem answers_respond {m : Message} (hm : m.isEvent = false) (d : Client) : s.Answers (s.respond d m) c :=
  ⟨rfl, rfl, isEvent_of_mem_respond hm d⟩

theorem answers_login (d : Client) (r : Request) : s.Answers (s.login env d r) c := by
  rw [Server.login]
  split_ifs
  · exact answers_respond rfl d
  · split
    · exact answers_respond rfl d
    · exact ⟨rfl, rfl, isEvent_of_mem_respond rfl d⟩

theorem answers_logout (d : Client) : s.Answers (s.logout d) c := by
  rw [Server.logout]
  split_ifs
  · exact ⟨rfl, rfl, isEvent_of_mem_respond rfl d⟩
  · exact answers_respond rfl d

theorem answers_view (d : Client) (r : Request) (e : Endpoint) : s.Answers (s.view d r e) c := by
  refine answers_respond ?_ d
  cases r.failure with
  | none => rfl
  | some f => rfl

/-- A request that is no accepted event is only answered. -/
theorem answers_handle {d : Client} {r : Request} (haccepts : s.accepts env (.request d r) = none) :
    s.Answers (s.handle env d r) c := by
  rw [Server.handle]
  split_ifs with hguard
  · exact answers_respond rfl d
  cases hd : dispatch r.method r.path with
  | none => exact answers_respond rfl d
  | some e =>
    cases e with
    | login => exact answers_login d r
    | logout => exact answers_logout d
    | me =>
      refine answers_respond ?_ d
      split_ifs <;> rfl
    | index =>
      refine answers_respond ?_ d
      split_ifs <;> rfl
    | ingestEvent =>
      dsimp only
      rw [Server.ingestEvent]
      by_cases htoken : authorized env.config r.token = true
      · rw [if_neg (not_not.mpr htoken)]
        rw [Server.accepts, if_pos ⟨hguard, hd, htoken⟩] at haccepts
        rw [haccepts]
        exact answers_respond rfl d
      · rw [if_pos htoken]
        exact answers_respond rfl d
    | _ => exact answers_view d r _

/-- What is done with an event that is accepted. -/
theorem handle_of_accepts {d : Client} {r : Request} {snapshot : Snapshot}
    (haccepts : s.accepts env (.request d r) = some snapshot) :
    s.handle env d r =
      { s with broadcasts := s.broadcasts ++ [{ poster := d, snapshot := snapshot }], outbox := [] } := by
  rw [Server.accepts] at haccepts
  split_ifs at haccepts with h
  obtain ⟨hguard, hdispatch, htoken⟩ := h
  rw [Server.handle, if_neg hguard, hdispatch]
  dsimp only
  rw [Server.ingestEvent, if_neg (not_not.mpr htoken), haccepts]

/-! ## Threads -/

/-- What a thread sends to a client that is connected once. -/
theorem sentTo_advance (hcount : s.connected.count c = 1) (i : Nat) (b : Broadcast) (ok : Bool) :
    ∃ answers : List Message, (∀ m ∈ answers, m.isEvent = false) ∧
      (s.advance i b ok).sentTo c = (b.emission ok).toList ++ answers := by
  have hemit : (((b.emission ok).elim [] s.emit).filter (·.1 = c)).map (·.2) = (b.emission ok).toList := by
    cases he : b.emission ok with
    | none => rfl
    | some m =>
      rw [Option.elim_some, sentTo_emit, hcount]
      rfl
  rw [Server.sentTo, Server.advance]
  cases hpc : b.pc.next with
  | some pc =>
    refine ⟨[], fun m hm => absurd hm List.not_mem_nil, ?_⟩
    rw [List.append_nil]
    exact hemit
  | none =>
    refine ⟨([(b.poster, Message.success .ingestEvent)].filter (·.1 = c)).map (·.2), ?_, ?_⟩
    · intro m hm
      obtain ⟨x, hx, rfl⟩ := List.mem_map.mp hm
      obtain rfl := List.mem_singleton.mp (List.mem_of_mem_filter hx)
      rfl
    · rw [← hemit, ← List.map_append, ← List.filter_append]

/-- Where a thread goes on, if it does. -/
def Broadcast.rest (b : Broadcast) : List Broadcast :=
  (b.pc.next.map fun pc => { b with pc := pc }).toList

theorem broadcasts_advance {i : Nat} {b : Broadcast} (hb : s.broadcasts[i]? = some b) (ok : Bool) :
    s.broadcasts.Perm (b :: s.broadcasts.eraseIdx i) ∧
      (s.advance i b ok).broadcasts.Perm (b.rest ++ s.broadcasts.eraseIdx i) := by
  obtain ⟨hi, rfl⟩ := List.getElem?_eq_some_iff.mp hb
  refine ⟨(List.getElem_cons_eraseIdx_perm hi).symm, ?_⟩
  rw [Server.advance, Broadcast.rest]
  cases s.broadcasts[i].pc.next with
  | some pc => exact List.set_perm_cons_eraseIdx hi _
  | none => exact List.Perm.refl _

/-- The broadcasts before and after a step, seen through what each of them has still to emit. -/
theorem filterMap_advance {β : Type} (f : Broadcast → Option β) {i : Nat} {b : Broadcast}
    (hb : s.broadcasts[i]? = some b) (ok : Bool) :
    (↑(s.broadcasts.filterMap f) : Multiset β) = ↑(f b).toList + ↑((s.broadcasts.eraseIdx i).filterMap f) ∧
      (↑((s.advance i b ok).broadcasts.filterMap f) : Multiset β) =
        ↑(b.rest.filterMap f) + ↑((s.broadcasts.eraseIdx i).filterMap f) := by
  obtain ⟨hbefore, hafter⟩ := broadcasts_advance hb ok
  constructor
  · rw [Multiset.coe_eq_coe.mpr (hbefore.filterMap f), Multiset.coe_add, List.filterMap_cons]
    cases f b <;> rfl
  · rw [Multiset.coe_eq_coe.mpr (hafter.filterMap f), Multiset.coe_add, List.filterMap_append]

/-- The message of a step, as a list. -/
def Broadcast.emitted (b : Broadcast) (ok : Bool) : List Message :=
  (b.emission ok).toList

/-- The incident of the last step is the one the event announces, or none. -/
theorem emitted_incident {poster : Client} {snapshot : Snapshot} {ok : Bool} :
    Broadcast.emitted ⟨poster, snapshot, .incident⟩ ok = [] ∨
      ∃ n, snapshot.announced = some n ∧
        Broadcast.emitted ⟨poster, snapshot, .incident⟩ ok = [.incidentUpdate n] := by
  unfold Broadcast.emitted Broadcast.emission Snapshot.announced
  cases snapshot.incidentId with
  | none => exact .inl rfl
  | some n =>
    by_cases hn : n ≠ 0
    · cases ok with
      | false => exact .inl (by simp)
      | true => exact .inr ⟨n, by simp [hn], by simp [hn]⟩
    · exact .inl (by simp [hn])

/-- The attack that a thread emits is the one it had still to emit. -/
theorem attacks_account (b : Broadcast) (ok : Bool) :
    (b.emitted ok).filterMap Message.attack? ++ b.rest.filterMap Broadcast.waiting = b.waiting.toList := by
  obtain ⟨poster, snapshot, pc⟩ := b
  cases pc with
  | attack => rfl
  | stats => cases ok <;> rfl
  | incident =>
    rcases @emitted_incident poster snapshot ok with he | ⟨n, -, he⟩
    · rw [he]
      rfl
    · rw [he]
      rfl

theorem incidents_account (b : Broadcast) (ok : Bool) :
    ((b.emitted ok).filterMap Message.incident? ++ b.rest.filterMap Broadcast.announcing).Sublist
      (b.announcing.toList ++ ((b.emitted ok).filterMap Message.attack?).filterMap Snapshot.announced) := by
  obtain ⟨poster, snapshot, pc⟩ := b
  have hstats : [Broadcast.mk poster snapshot .stats].filterMap Broadcast.announcing = snapshot.announced.toList := by
    simp only [List.filterMap_cons, Broadcast.announcing]
    cases snapshot.announced <;> rfl
  cases pc with
  | attack =>
    show ([Broadcast.mk poster snapshot .stats].filterMap Broadcast.announcing).Sublist
      ([snapshot].filterMap Snapshot.announced)
    rw [hstats, List.filterMap_cons]
    cases snapshot.announced <;> exact List.Sublist.refl _
  | stats =>
    have hemitted : (Broadcast.emitted ⟨poster, snapshot, .stats⟩ ok).filterMap Message.incident? = [] := by
      cases ok <;> rfl
    rw [hemitted]
    show ([Broadcast.mk poster snapshot .incident].filterMap Broadcast.announcing).Sublist _
    have hincident : [Broadcast.mk poster snapshot .incident].filterMap Broadcast.announcing =
        snapshot.announced.toList := hstats
    rw [hincident]
    exact List.sublist_append_left _ _
  | incident =>
    rcases @emitted_incident poster snapshot ok with he | ⟨n, hn, he⟩
    · rw [he]
      exact List.nil_sublist _
    · rw [he]
      show [n].Sublist (snapshot.announced.toList ++ [])
      rw [hn]
      exact List.Sublist.refl _

theorem stats_account (b : Broadcast) (ok : Bool) :
    (b.emitted ok).count .statsUpdate + b.rest.countP Broadcast.counting ≤
      [b].countP Broadcast.counting + ((b.emitted ok).filterMap Message.attack?).length := by
  obtain ⟨poster, snapshot, pc⟩ := b
  cases pc with
  | attack => exact Nat.le_refl 1
  | stats =>
    cases ok with
    | true => exact Nat.le_refl 1
    | false => exact Nat.zero_le 1
  | incident =>
    rcases @emitted_incident poster snapshot ok with he | ⟨n, -, he⟩
    · rw [he]
      exact Nat.le_refl 0
    · rw [he]
      exact Nat.le_refl 0

/-- A thread takes a step. -/
theorem Delivered.advance (hd : Delivered env c s h) {i : Nat} {b : Broadcast}
    (hb : s.broadcasts[i]? = some b) (ok : Bool) :
    Delivered env c (s.advance i b ok) (h ++ [⟨s, .advance i ok, s.advance i b ok⟩]) := by
  obtain ⟨answers, hanswers, hsent⟩ := sentTo_advance hd.connected i b ok
  obtain ⟨hnoAttacks, hnoIncidents, hnoStats⟩ := noEvents hanswers
  change (s.advance i b ok).sentTo c = b.emitted ok ++ answers at hsent
  have hattacks : receivedAttacks c (h ++ [⟨s, .advance i ok, s.advance i b ok⟩]) =
      receivedAttacks c h ++ (b.emitted ok).filterMap Message.attack? := by
    rw [receivedAttacks_append, hsent, List.filterMap_append, hnoAttacks, List.append_nil]
  constructor
  case connected =>
    have hsame : (s.advance i b ok).connected = s.connected := by
      rw [Server.advance]
      cases b.pc.next <;> rfl
    rw [hsame, hd.connected]
  case attacks =>
    obtain ⟨hbefore, hafter⟩ := filterMap_advance Broadcast.waiting hb ok
    have hold := Multiset.coe_eq_coe.mpr hd.attacks
    rw [← Multiset.coe_add, hbefore, ← attacks_account b ok, ← Multiset.coe_add] at hold
    have haccepts : s.accepts env (.advance i ok) = none := rfl
    rw [hattacks, accepted_append, haccepts, Option.toList_none, List.append_nil, ← Multiset.coe_eq_coe, ← hold,
      ← Multiset.coe_add, ← Multiset.coe_add, hafter]
    abel
  case incidents =>
    obtain ⟨hbefore, hafter⟩ := filterMap_advance Broadcast.announcing hb ok
    have hold := Multiset.coe_le.mpr hd.incidents
    have hown := Multiset.coe_le.mpr (incidents_account b ok).subperm
    rw [← Multiset.coe_add, hbefore] at hold
    rw [← Multiset.coe_add, ← Multiset.coe_add] at hown
    rw [hattacks, receivedIncidents_append, hsent, List.filterMap_append, hnoIncidents, List.append_nil,
      List.filterMap_append, ← Multiset.coe_le]
    rw [← Multiset.coe_add, ← Multiset.coe_add, ← Multiset.coe_add, hafter]
    calc (↑(receivedIncidents c h) + ↑((b.emitted ok).filterMap Message.incident?) +
          (↑(b.rest.filterMap Broadcast.announcing) +
            ↑((s.broadcasts.eraseIdx i).filterMap Broadcast.announcing)) : Multiset Int)
      _ = ↑(receivedIncidents c h) + ↑((s.broadcasts.eraseIdx i).filterMap Broadcast.announcing) +
          (↑((b.emitted ok).filterMap Message.incident?) + ↑(b.rest.filterMap Broadcast.announcing)) := by abel
      _ ≤ ↑(receivedIncidents c h) + ↑((s.broadcasts.eraseIdx i).filterMap Broadcast.announcing) +
          (↑b.announcing.toList +
            ↑(((b.emitted ok).filterMap Message.attack?).filterMap Snapshot.announced)) := by gcongr
      _ = ↑(receivedIncidents c h) +
            (↑b.announcing.toList + ↑((s.broadcasts.eraseIdx i).filterMap Broadcast.announcing)) +
          ↑(((b.emitted ok).filterMap Message.attack?).filterMap Snapshot.announced) := by abel
      _ ≤ _ := by gcongr
  case stats =>
    obtain ⟨hbefore, hafter⟩ := broadcasts_advance hb ok
    have hold := hd.stats
    have hown := stats_account b ok
    rw [hbefore.countP_eq, List.countP_cons] at hold
    rw [List.countP_singleton] at hown
    rw [hattacks, receivedStats_append, hsent, List.count_append, hnoStats, hafter.countP_eq, List.countP_append,
      List.length_append]
    omega

/-! ## Runs -/

/-- Clients that come and go do not change what another client receives. -/
theorem count_erase_of_stays {d : Client} {connected : List Client} (hd : c ≠ d) :
    (connected.erase d).count c = connected.count c ∧ (connected ++ [d]).count c = connected.count c := by
  constructor
  · exact List.count_erase_of_ne hd
  · rw [List.count_append, List.count_singleton, if_neg (by simpa using hd.symm), Nat.add_zero]

theorem delivered_step {a : Action} (hd : Delivered env c s h) (hstays : Stays c s a)
    (hs : serverStep env s a = some s') : Delivered env c s' (h ++ [⟨s, a, s'⟩]) := by
  cases a with
  | request d r =>
    obtain rfl := Option.some.inj hs
    cases haccepts : s.accepts env (.request d r) with
    | none =>
      obtain ⟨hconnected, hbroadcasts, hsent⟩ := answers_handle haccepts
      exact hd.silent (hconnected ▸ hd.connected) hbroadcasts haccepts hsent
    | some snapshot =>
      have hhandle := handle_of_accepts haccepts
      exact hd.accept (by rw [hhandle]) (by rw [hhandle]) haccepts (by rw [hhandle])
  | connect d =>
    obtain rfl := Option.some.inj hs
    have hne : c ≠ d := fun hcd => hstays.1 (by rw [hcd])
    refine hd.silent ((count_erase_of_stays hne).2.trans hd.connected) rfl rfl ?_
    intro m hm
    obtain ⟨x, hx, rfl⟩ := List.mem_map.mp hm
    obtain ⟨e, -, rfl⟩ := List.mem_map.mp (List.mem_of_mem_filter hx)
    rfl
  | disconnect d =>
    have hne : c ≠ d := fun hcd => hstays.2 (by rw [hcd])
    rw [serverStep] at hs
    split_ifs at hs
    obtain rfl := Option.some.inj hs
    exact hd.silent ((count_erase_of_stays hne).1.trans hd.connected) rfl rfl
      fun m hm => absurd hm List.not_mem_nil
  | advance i ok =>
    obtain ⟨b, hb, rfl⟩ := Option.map_eq_some_iff.mp hs
    exact hd.advance hb ok
  | closeBrowser d =>
    obtain rfl := Option.some.inj hs
    exact hd.silent hd.connected rfl rfl fun m hm => absurd hm List.not_mem_nil
  | setActive userId active =>
    obtain rfl := Option.some.inj hs
    exact hd.silent hd.connected rfl rfl fun m hm => absurd hm List.not_mem_nil

/-- Before anything was broadcast, nothing was received. -/
theorem delivered_idle (hconnected : s.connected.count c = 1) (hidle : s.broadcasts = []) :
    Delivered env c s [] := by
  constructor
  case connected => exact hconnected
  case attacks =>
    rw [hidle]
    exact List.Perm.refl _
  case incidents =>
    rw [hidle]
    exact List.Subperm.refl _
  case stats =>
    rw [hidle]
    exact Nat.le_refl _

theorem delivered_run {as : List Action} (hconnected : s.connected.count c = 1) (hidle : s.broadcasts = [])
    (hstays : Runs.Guarded (serverStep env) (Stays c) s as) (hr : Runs.run (serverStep env) s as = some s') :
    Delivered env c s' (Runs.history (serverStep env) s as) :=
  Runs.run_history (J := Delivered env c) (fun _ _ _ _ hd hst hs => delivered_step hd hst hs)
    (delivered_idle hconnected hidle) hstays hr

/-- A client that stays connected receives each accepted event exactly once, or it is still to be emitted,
and the incident and the counters of an event only after its attack. When no broadcast is under way, it has
received the accepted events, at most their incidents, and the counters at most that often. -/
theorem delivered_once {as : List Action} (hconnected : s.connected.count c = 1) (hidle : s.broadcasts = [])
    (hstays : Runs.Guarded (serverStep env) (Stays c) s as) (hr : Runs.run (serverStep env) s as = some s') :
    Delivered env c s' (Runs.history (serverStep env) s as) ∧
      (s'.broadcasts = [] →
        (receivedAttacks c (Runs.history (serverStep env) s as)).Perm
            (accepted env (Runs.history (serverStep env) s as)) ∧
          (receivedIncidents c (Runs.history (serverStep env) s as)).Subperm
            ((accepted env (Runs.history (serverStep env) s as)).filterMap Snapshot.announced) ∧
          receivedStats c (Runs.history (serverStep env) s as) ≤
            (accepted env (Runs.history (serverStep env) s as)).length) := by
  have hd := delivered_run hconnected hidle hstays hr
  refine ⟨hd, fun hdone => ?_⟩
  have hattacks := hd.attacks
  have hincidents := hd.incidents
  have hstats := hd.stats
  rw [hdone, List.filterMap_nil, List.append_nil] at hattacks hincidents
  rw [hdone, List.countP_nil, Nat.add_zero] at hstats
  exact ⟨hattacks, hincidents.trans (hattacks.filterMap _).subperm, hattacks.length_eq ▸ hstats⟩

/-- The analyst is connected. -/
def analystConnected : Server where
  users := analyst
  connected := [1]

/-- The second event overtakes the first one. -/
def twoEvents : List Action :=
  let event (incidentId : Option Int) : Request :=
    { method := .post, path := "/api/internal/events", token := some "token",
      snapshot := some { incidentId := incidentId } }
  [.request 0 (event (some 3)), .request 7 (event none), .advance 1 true, .connect 2, .advance 1 false,
    .advance 0 true, .advance 1 true, .advance 0 true, .advance 0 true]

theorem delivered_once_twoEvents : ∃ s', Runs.run (serverStep testEnv) analystConnected twoEvents = some s' ∧
    (receivedAttacks 1 (Runs.history (serverStep testEnv) analystConnected twoEvents)).Perm
      [{ incidentId := some 3 }, { incidentId := none }] := by
  have hrun : ((Runs.run (serverStep testEnv) analystConnected twoEvents).any fun s' => s'.broadcasts.isEmpty) =
      true := by decide
  obtain ⟨s', hr, hend⟩ := (Option.any_eq_true _ _).mp hrun
  obtain ⟨-, hdone⟩ := delivered_once (by decide) rfl (by decide : Runs.Guarded _ (Stays 1) _ _) hr
  exact ⟨s', hr, (hdone (List.isEmpty_iff.mp hend)).1⟩

end SentinelSsh.Backend
