import SentinelSsh.Backend.Proofs.DeliveryProofs
import SentinelSsh.Frontend.Feed

/-!
# What the live feed shows

Without the line for an empty feed, the children of the element are cut like the list of the attacks, so
the feed shows the last events and below them what was loaded (`live_exact`). With what is delivered to a
dashboard that stays connected, no accepted event is missing or shown twice (`feed_complete`).
-/

namespace SentinelSsh.Frontend

variable {α : Type}

/-! ## Rows -/

/-- The node is the row of an attack. -/
def FeedNode.isRow : FeedNode α → Bool
  | .row _ _ => true
  | .empty => false

/-- Among rows only, the rows from an index on are a tail. -/
theorem dropRows_eq_take {nodes : List (FeedNode α)} (hnodes : ∀ n ∈ nodes, n.isRow = true) (limit : Nat) :
    dropRows limit nodes = nodes.take limit := by
  induction nodes generalizing limit with
  | nil => rw [List.take_nil, dropRows]
  | cons n nodes ih =>
    rw [List.forall_mem_cons] at hnodes
    cases n with
    | empty => exact absurd hnodes.1 Bool.false_ne_true
    | row a isNew =>
      cases limit with
      | zero => exact (ih hnodes.2 0).trans List.take_zero
      | succ limit => rw [dropRows, List.take_succ_cons, ih hnodes.2 limit]

theorem dropEmpty_of_rows {nodes : List (FeedNode α)} (hnodes : ∀ n ∈ nodes, n.isRow = true) :
    dropEmpty nodes = nodes := by
  induction nodes with
  | nil => rfl
  | cons n nodes ih =>
    rw [List.forall_mem_cons] at hnodes
    cases n with
    | empty => exact absurd hnodes.1 Bool.false_ne_true
    | row a isNew => rw [dropEmpty, ih hnodes.2]

theorem isRow_feedRows (loaded events : List α) : ∀ n ∈ feedRows loaded events, n.isRow = true := by
  intro n hn
  rcases List.mem_append.mp hn with hn | hn
  · obtain ⟨a, -, rfl⟩ := List.mem_map.mp hn
    rfl
  · obtain ⟨a, -, rfl⟩ := List.mem_map.mp hn
    rfl

/-! ## Events -/

theorem feedRows_append (loaded events : List α) (a : α) :
    feedRows loaded (events ++ [a]) = .row a true :: feedRows loaded events := by
  rw [feedRows, List.reverse_append, List.reverse_singleton, List.singleton_append, List.map_cons,
    List.cons_append]
  rfl

/-- Cutting before an element is put in front does not change the cut after it. -/
theorem take_cons_take {β : Type} (x : β) (l : List β) (n : Nat) :
    (x :: l.take n).take n = (x :: l).take n := by
  cases n with
  | zero => rfl
  | succ n => rw [List.take_succ_cons, List.take_succ_cons, List.take_take, Nat.min_eq_left (Nat.le_succ n)]

/-- The children after an event. -/
theorem prependAttack_nodes {feed : Feed α} {rows : List (FeedNode α)} (hrows : ∀ n ∈ rows, n.isRow = true)
    (hfeed : feed.nodes = if rows.isEmpty then [.empty] else rows.take feedLimit) (a : α) :
    (feed.prependAttack a).nodes = (.row a true :: rows).take feedLimit := by
  have hall : ∀ n ∈ FeedNode.row a true :: rows, n.isRow = true := List.forall_mem_cons.mpr ⟨rfl, hrows⟩
  rw [Feed.prependAttack, hfeed]
  cases rows with
  | nil => rfl
  | cons n rows =>
    have hcut : ∀ m ∈ FeedNode.row a true :: (n :: rows).take feedLimit, m.isRow = true := by
      intro m hm
      rcases List.mem_cons.mp hm with rfl | hm
      · rfl
      · exact hrows m (List.mem_of_mem_take hm)
    dsimp only [List.isEmpty_cons]
    rw [if_neg Bool.false_ne_true, dropRows_eq_take hcut, take_cons_take, dropEmpty_of_rows]
    exact fun m hm => hall m (List.mem_of_mem_take hm)

theorem isEmpty_feedRows (loaded events : List α) :
    (feedRows loaded events).isEmpty = (events.reverse ++ loaded).isEmpty := by
  unfold feedRows
  cases events.reverse with
  | nil => exact List.isEmpty_map
  | cons a rest => rfl

/-- After any live events the feed shows the last ones and below them what was loaded, up to its limit; if
there is neither, it says so. -/
theorem live_exact {loaded : List α} (hloaded : loaded.length ≤ feedLimit) (events : List α) :
    ((loadFeed loaded).live events).items = (events.reverse ++ loaded).take feedLimit ∧
      ((loadFeed loaded).live events).nodes =
        if (events.reverse ++ loaded).isEmpty then [.empty] else (feedRows loaded events).take feedLimit := by
  induction events using List.reverseRecOn with
  | nil =>
    have hmap : (loaded.map (FeedNode.row · false)).take feedLimit = loaded.map (.row · false) :=
      List.take_of_length_le (by rwa [List.length_map])
    refine ⟨(List.take_of_length_le hloaded).symm, ?_⟩
    show renderFeed loaded = if loaded.isEmpty then _ else (loaded.map (.row · false)).take feedLimit
    rw [hmap, renderFeed]
  | append_singleton events a ih =>
    obtain ⟨hitems, hnodes⟩ := ih
    have hlive : (loadFeed loaded).live (events ++ [a]) = ((loadFeed loaded).live events).prependAttack a :=
      List.foldl_concat ..
    rw [hlive, List.reverse_append, List.reverse_singleton, List.singleton_append, List.cons_append]
    constructor
    · rw [Feed.prependAttack, hitems]
      exact take_cons_take a _ _
    · rw [← isEmpty_feedRows] at hnodes
      rw [List.isEmpty_cons, if_neg Bool.false_ne_true, feedRows_append]
      exact prependAttack_nodes (isRow_feedRows loaded events) hnodes a

/-! ## The dashboard and the backend -/

open Backend

/-- The feed of a dashboard that loaded `loaded` and then received the events of a run. -/
def dashboardFeed (c : Client) (loaded : List Snapshot) (h : History) : Feed Snapshot :=
  (loadFeed loaded).live (receivedAttacks c h)

/-- A dashboard that stays connected shows the live events it received, the last one first, above what it
loaded. These are the accepted events, each once, but for those that are still to be emitted. -/
theorem feed_complete {env : Env} {s s' : Server} {c : Client} {as : List Backend.Action}
    {loaded : List Snapshot} (hloaded : loaded.length ≤ feedLimit) (hconnected : s.connected.count c = 1)
    (hidle : s.broadcasts = []) (hstays : Runs.Guarded (serverStep env) (Stays c) s as)
    (hr : Runs.run (serverStep env) s as = some s') :
    (receivedAttacks c (Runs.history (serverStep env) s as) ++
        s'.broadcasts.filterMap Broadcast.waiting).Perm (accepted env (Runs.history (serverStep env) s as)) ∧
      (dashboardFeed c loaded (Runs.history (serverStep env) s as)).nodes =
        if ((receivedAttacks c (Runs.history (serverStep env) s as)).reverse ++ loaded).isEmpty then [.empty]
        else (feedRows loaded (receivedAttacks c (Runs.history (serverStep env) s as))).take feedLimit :=
  ⟨(delivered_run hconnected hidle hstays hr).attacks, (live_exact hloaded _).2⟩

/-- The feed of the analyst after two events. -/
theorem feed_complete_twoEvents : ∃ s', Runs.run (serverStep testEnv) analystConnected twoEvents = some s' ∧
    (receivedAttacks 1 (Runs.history (serverStep testEnv) analystConnected twoEvents)).Perm
        [⟨some 3⟩, ⟨none⟩] ∧
      (dashboardFeed 1 [⟨some 2⟩] (Runs.history (serverStep testEnv) analystConnected twoEvents)).nodes =
        (feedRows [⟨some 2⟩]
          (receivedAttacks 1 (Runs.history (serverStep testEnv) analystConnected twoEvents))).take feedLimit := by
  have hrun : ((Runs.run (serverStep testEnv) analystConnected twoEvents).any fun s' => s'.broadcasts.isEmpty) =
      true := by decide
  obtain ⟨s', hr, hend⟩ := (Option.any_eq_true _ _).mp hrun
  obtain ⟨hevents, hnodes⟩ := feed_complete (by decide : [⟨some 2⟩].length ≤ feedLimit) (by decide) rfl
    (by decide : Runs.Guarded _ (Stays 1) _ _) hr
  rw [List.isEmpty_iff.mp hend, List.filterMap_nil, List.append_nil] at hevents
  refine ⟨s', hr, hevents, ?_⟩
  rwa [if_neg (by simp)] at hnodes

end SentinelSsh.Frontend
