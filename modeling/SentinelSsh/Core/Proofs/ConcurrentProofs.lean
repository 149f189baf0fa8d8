import SentinelSsh.Core.Concurrent
import SentinelSsh.Core.Proofs.CorrelationProofs

/-!
# Concurrent calls: what a stale read costs

The incident table stays consistent exactly as long as no call commits an incident it selected before
another call of the same address committed, and when the counts are current as well, the calls are
serializable in the order of their commits (`concurrent_calls`).
-/

namespace SentinelSsh.Core

/-! ## The invariant -/

/-- The incident a call works on, in the states where it has one. -/
def Progress.pending : Progress → Option Pending
  | .selected w => some w
  | .flushedIncident w _ => some w
  | .flushedAttack w _ _ => some w
  | _ => none

/-- Nothing is left of a call but its commit. -/
def Progress.isFinal : Progress → Bool
  | .flushedAttack .. => true
  | .committed => true
  | _ => false

/-- The row a call has loaded is still there and not closed; it is unchanged or has counted more
attempts since. -/
def Loaded (db : Db) (ip : String) (found : Option Incident) : Prop :=
  ∀ loaded, found = some loaded → ∃ row ∈ db.incidents, row.id = loaded.id ∧ row.sourceIp = ip ∧
    row.status ≠ .closed ∧ (row = loaded ∨ loaded.attemptCount < row.attemptCount)

/-- What a call holds is what `correlate` made of the row it found. -/
structure PendingOk (p : IngestPipeline) (db : Db) (capture : Capture) (w : Pending) : Prop where
  loaded : Loaded db capture.sourceIp w.found
  incident : w.incident = ((w.found.map Incident.toIncidentCols).getD
    (newIncident (p.draft capture w.prior).correlateArgs)).absorb (p.draft capture w.prior).correlateArgs

/-- The key of a call is the one of the row it found, or one that no row has. -/
structure KeyOk (db : Db) (w : Pending) (key : Nat) : Prop where
  found : ∀ loaded, w.found = some loaded → key = loaded.id
  fresh : w.found = none → key < db.nextIncident ∧ ∀ i ∈ db.incidents, i.id ≠ key

/-- The history window of a call has been computed, and its flushes have been accepted. -/
def Flushed (p : IngestPipeline) (engine : Engine) (capture : Capture) : Progress → Prop
  | .counted _ | .selected _ => (p.windowStart (p.captureTs capture)).isSome = true
  | .flushedIncident w _ => (p.windowStart (p.captureTs capture)).isSome = true ∧
      engine.acceptsAll w.incident.columns = true
  | .flushedAttack w _ _ => (p.windowStart (p.captureTs capture)).isSome = true ∧
      engine.acceptsAll w.incident.columns = true ∧
      engine.acceptsAll (p.draft capture w.prior).attack.columns = true ∧
      (p.draft capture w.prior).commands.all (fun c => engine.acceptsAll c.columns) = true
  | _ => True

/-- The state of the calls is in order, and the database holds the histories `book`. -/
structure CallsOk (p : IngestPipeline) (engine : Engine) (captures : List Capture) (s : Calls)
    (book : String → Ledger) : Prop where
  correlated : Correlated s.db book
  pending : ∀ i capture w, captures[i]? = some capture → (s.calls i).pending = some w →
    PendingOk p s.db capture w
  key : ∀ i w key, (s.calls i).written = some (w, key) → KeyOk s.db w key
  /-- New keys are different. -/
  distinct : ∀ i j w w' key, (s.calls i).written = some (w, key) →
    (s.calls j).written = some (w', key) → w.found = none → w'.found = none → i = j
  flushed : ∀ i capture, captures[i]? = some capture → Flushed p engine capture (s.calls i)
  order_nodup : s.order.Nodup
  order_mem : ∀ i, i ∈ s.order ↔ s.calls i = .committed

/-- Rows that are not closed stay, unchanged or with more attempts. -/
def Grows (db db' : Db) : Prop :=
  ∀ row ∈ db.incidents, row.status ≠ .closed → ∃ row' ∈ db'.incidents, row'.id = row.id ∧
    row'.sourceIp = row.sourceIp ∧ row'.status ≠ .closed ∧
    (row' = row ∨ row.attemptCount < row'.attemptCount)

theorem Loaded.grow {db db' : Db} {ip : String} {found : Option Incident} (h : Loaded db ip found)
    (hg : Grows db db') : Loaded db' ip found := by
  intro loaded hl
  obtain ⟨row, hrow, hid, hip, hst, hcount⟩ := h loaded hl
  obtain ⟨row', hrow', hid', hip', hst', hcount'⟩ := hg row hrow hst
  refine ⟨row', hrow', hid'.trans hid, hip'.trans hip, hst', ?_⟩
  rcases hcount' with rfl | hlt
  · exact hcount
  · rcases hcount with rfl | hlt'
    · exact Or.inr hlt
    · exact Or.inr (hlt'.trans hlt)

section

variable {db : Db} {book : String → Ledger} {p : IngestPipeline} {engine : Engine}
  {captures : List Capture} {s s' : Calls}

/-! ## Correlated databases are consistent -/

theorem Correlated.consistent (h : Correlated db book) : db.Consistent where
  single := h.open_length
  attempts i hi := by
    obtain ⟨q, -, hrow⟩ := h.row_of_mem hi
    have hsum := h.summaryOf hi hrow
    rw [hsum.attemptCount, ← hsum.linked, List.map_map]
    rfl

/-! ## Commits -/

/-- A commit that is current writes what `correlate` would return now. -/
theorem PendingOk.correlate_eq {capture : Capture} {w : Pending} (h : PendingOk p db capture w)
    (hsel : selectIncident engine db.incidents capture.sourceIp = w.found) :
    correlate engine db.incidents (p.draft capture w.prior).correlateArgs = (w.found, w.incident) := by
  have hip : (p.draft capture w.prior).correlateArgs.sourceIp = capture.sourceIp := rfl
  rw [h.incident, correlate, hip, hsel]

/-- The tables after a commit. -/
abbrev commitOf (p : IngestPipeline) (db : Db) (capture : Capture) (w : Pending) (key attackKey : Nat) :
    Db :=
  (db.putIncident w.found key w.incident).putAttack attackKey (p.draft capture w.prior).attack
    (p.draft capture w.prior).commands key

/-- A current commit appends the attack to the history of its address. -/
theorem Correlated.commit (h : Correlated db book) {capture : Capture} {w : Pending}
    {key attackKey : Nat} (hw : PendingOk p db capture w) (hkey : KeyOk db w key)
    (hsel : selectIncident engine db.incidents capture.sourceIp = w.found) :
    Correlated (commitOf p db capture w key attackKey) (Function.update book capture.sourceIp
      ((book capture.sourceIp).apply (.attack (p.draft capture w.prior).attack))) := by
  have hcor := hw.correlate_eq hsel
  have hip : (p.draft capture w.prior).attack.sourceIp = capture.sourceIp := rfl
  have hput := h.put (draft_describes p capture w.prior) key attackKey
    (p.draft capture w.prior).commands
    (fun i hi => hkey.found i (by rw [← hsel, ← hip]; exact hi))
    (fun hi => (hkey.fresh (by rw [← hsel, ← hip]; exact hi)).2)
  rw [hcor] at hput
  exact hput

/-- A current commit leaves every other open row as it is. -/
theorem Correlated.grows_commit (h : Correlated db book) {capture : Capture} {w : Pending}
    {key : Nat} (attackKey : Nat) (hw : PendingOk p db capture w) (hkey : KeyOk db w key)
    (hsel : selectIncident engine db.incidents capture.sourceIp = w.found) :
    Grows db (commitOf p db capture w key attackKey) := by
  intro row hrow hst
  cases hf : w.found with
  | none =>
    refine ⟨row, ?_, rfl, rfl, hst, Or.inl rfl⟩
    simp only [commitOf, Db.putAttack, Db.putIncident, hf, List.mem_append]
    exact Or.inl hrow
  | some loaded =>
    have hmem := (h.open_of_select (hsel.trans hf)).1
    have hinc : (commitOf p db capture w key attackKey).incidents =
        db.incidents.map fun i => if i = loaded then { w.incident with id := loaded.id } else i := by
      rw [commitOf, hkey.found loaded hf, hf]
      exact h.incidents_putFound hmem w.incident
    rw [hinc]
    by_cases hl : row = loaded
    · subst hl
      refine ⟨_, List.mem_map_of_mem hrow, ?_⟩
      rw [if_pos rfl, hw.incident, hf]
      refine ⟨rfl, rfl, hst, Or.inr ?_⟩
      show row.attemptCount < row.attemptCount + max 1 _
      omega
    · refine ⟨row, ?_, rfl, rfl, hst, Or.inl rfl⟩
      exact List.mem_map.mpr ⟨row, hrow, if_neg hl⟩

/-- A commit of a new incident while the address has an open one leaves two of them. -/
theorem Correlated.not_consistent_of_new (h : Correlated db book) {capture : Capture} {w : Pending}
    {key attackKey : Nat} (hw : PendingOk p db capture w) (hf : w.found = none) {row : Incident}
    (hsel : selectIncident engine db.incidents capture.sourceIp = some row) :
    ¬ (commitOf p db capture w key attackKey).Consistent := by
  intro hc
  obtain ⟨hrow, hip, hst⟩ := h.open_of_select hsel
  have hsrc : w.incident.sourceIp = capture.sourceIp := by rw [hw.incident, hf]; rfl
  have hopen : w.incident.status = .open := by rw [hw.incident, hf]; rfl
  have hrows : (commitOf p db capture w key attackKey).incidentsOf capture.sourceIp =
      db.incidentsOf capture.sourceIp ++ [{ w.incident with id := key }] := by
    rw [commitOf, hf, incidentsOf_putAttack, incidentsOf_putNew_self hsrc]
  have hmem : row ∈ (db.incidentsOf capture.sourceIp).filter (·.status ≠ .closed) :=
    List.mem_filter.mpr ⟨mem_incidentsOf.mpr ⟨hrow, hip⟩, by simpa using hst⟩
  have hpos := List.length_pos_of_mem hmem
  have hlen := hc.single capture.sourceIp
  rw [hrows, List.filter_append, List.length_append, List.filter_cons_of_pos (by simp [hopen])] at hlen
  simp only [List.filter_nil, List.length_singleton] at hlen
  omega

/-- A commit over a row that has counted more attempts since it was loaded loses those. -/
theorem Correlated.not_consistent_of_found (h : Correlated db book) {capture : Capture} {w : Pending}
    {key attackKey : Nat} (hw : PendingOk p db capture w) (hkey : KeyOk db w key) {loaded : Incident}
    (hf : w.found = some loaded)
    (hsel : selectIncident engine db.incidents capture.sourceIp ≠ some loaded) :
    ¬ (commitOf p db capture w key attackKey).Consistent := by
  intro hc
  obtain ⟨row, hrow, hid, hip, hst, hcount⟩ := hw.loaded loaded hf
  have hlt : loaded.attemptCount < row.attemptCount := by
    rcases hcount with rfl | hlt
    · exact absurd (hip ▸ h.select_of_open hrow hst) hsel
    · exact hlt
  have hcols : w.incident.attemptCount = loaded.attemptCount +
      max 1 (p.draft capture w.prior).attack.authAttempts := by
    rw [hw.incident, hf]
    show loaded.attemptCount + max 1 (max 1 (p.draft capture w.prior).attack.authAttempts) = _
    omega
  have hk : key = row.id := (hkey.found loaded hf).trans hid.symm
  have hmem : ({ loaded.patch w.incident row.toIncidentCols with id := row.id } : Incident) ∈
      (commitOf p db capture w key attackKey).incidents := by
    simp only [commitOf, Db.putAttack, Db.putIncident, hf]
    exact List.mem_map.mpr ⟨row, hrow, if_pos hk.symm⟩
  have hsum := hc.attempts _ hmem
  have hnew : (loaded.patch w.incident row.toIncidentCols).attemptCount = w.incident.attemptCount :=
    if_neg (by omega)
  simp only [commitOf, ← hk, linked_putAttack_self, linked_putIncident, List.map_append, List.map_cons,
    List.map_nil, List.sum_append, List.sum_cons, List.sum_nil] at hsum
  rw [hnew, hcols, hk, ← h.consistent.attempts row hrow] at hsum
  have hauth : (putRow attackKey (p.draft capture w.prior).attack row.id).authAttempts =
    (p.draft capture w.prior).attack.authAttempts := rfl
  rw [hauth] at hsum
  omega

/-! ## Steps -/

/-- What a step of call `i` does. -/
inductive Moved (p : IngestPipeline) (engine : Engine) (s : Calls) (i : Nat) (capture : Capture) :
    Calls → Prop where
  | counted (h : s.calls i = .idle) (hwindow : (p.windowStart (p.captureTs capture)).isSome = true) :
      Moved p engine s i capture (s.set i (.counted
        (p.priorAttempts engine s.db.attacks capture.sourceIp (p.captureTs capture))))
  | selected {prior : Int} (h : s.calls i = .counted prior) :
      Moved p engine s i capture (s.set i (.selected ⟨prior,
        (correlate engine s.db.incidents (p.draft capture prior).correlateArgs).1,
        (correlate engine s.db.incidents (p.draft capture prior).correlateArgs).2⟩))
  | failed {e : ProcessError} (h : (s.calls i).isFinal = false) :
      Moved p engine s i capture (s.set i (.failed e))
  | flushedIncident {w : Pending} (h : s.calls i = .selected w)
      (hacc : engine.acceptsAll w.incident.columns = true) :
      Moved p engine s i capture { s.set i (.flushedIncident w (s.db.incidentKey w.found)) with
        db := s.db.takeIncidentKey w.found }
  | flushedAttack {w : Pending} {key : Nat} (h : s.calls i = .flushedIncident w key)
      (hatt : engine.acceptsAll (p.draft capture w.prior).attack.columns = true)
      (hcmd : (p.draft capture w.prior).commands.all (fun c => engine.acceptsAll c.columns) = true) :
      Moved p engine s i capture { s.set i (.flushedAttack w key s.db.nextAttack) with
        db := { s.db with nextAttack := s.db.nextAttack + 1 } }
  | committed {w : Pending} {key attackKey : Nat} (h : s.calls i = .flushedAttack w key attackKey) :
      Moved p engine s i capture
        { db := commitOf p s.db capture w key attackKey
          calls := Function.update s.calls i .committed
          order := s.order ++ [i] }

theorem advance_moved {i : Nat} (h : advance p engine captures s i = some s') :
    ∃ capture, captures[i]? = some capture ∧ Moved p engine s i capture s' := by
  obtain ⟨capture, hcap, h⟩ := Option.bind_eq_some_iff.mp h
  refine ⟨capture, hcap, ?_⟩
  cases hi : s.calls i with
  | idle =>
    simp only [hi, Option.some.injEq] at h
    split at h
    · exact h ▸ .failed (by rw [hi]; rfl)
    · next prior hprior =>
      obtain ⟨hwindow, rfl⟩ := countPriorAttempts_eq_some.mp hprior
      exact h ▸ .counted hi hwindow
  | counted prior =>
    simp only [hi, Option.some.injEq] at h
    exact h ▸ .selected hi
  | selected w =>
    simp only [hi] at h
    split at h
    · exact absurd h (by simp)
    · split at h
      · exact Option.some.inj h ▸ .failed (by rw [hi]; rfl)
      · next hacc => exact Option.some.inj h ▸ .flushedIncident hi (by simpa using hacc)
  | flushedIncident w key =>
    simp only [hi] at h
    split at h
    · exact Option.some.inj h ▸ .failed (by rw [hi]; rfl)
    · next hatt =>
      split at h
      · exact Option.some.inj h ▸ .failed (by rw [hi]; rfl)
      · next hcmd =>
        exact Option.some.inj h ▸ .flushedAttack hi (by simpa using hatt) (by simpa using hcmd)
  | flushedAttack w key attackKey =>
    simp only [hi, Option.some.injEq] at h
    exact h ▸ .committed hi
  | committed => simp [hi] at h
  | failed e => simp [hi] at h

theorem Correlated.congr {db' : Db} (h : Correlated db book) (hinc : db'.incidents = db.incidents)
    (hatt : db'.attacks = db.attacks) (hnext : db.nextIncident ≤ db'.nextIncident) :
    Correlated db' book := by
  have hlinked : ∀ k, db'.linked k = db.linked k := fun k => by rw [Db.linked, Db.linked, hatt]
  refine
    { keys_lt := fun i hi => (h.keys_lt i (hinc ▸ hi)).trans_le hnext
      keys_nodup := by rw [hinc]; exact h.keys_nodup
      owned := by rw [hinc, hatt]; exact h.owned
      rows := fun ip => ?_
      triaged := h.triaged
      attacks := fun ip => by rw [Db.attacksOf, hatt]; exact h.attacks ip }
  rw [Db.incidentsOf, hinc]
  exact (h.rows ip).imp fun i piece hrow => hrow.congr (hlinked i.id)

/-- A step that commits nothing: the tables stay, and one call moves on. -/
theorem CallsOk.move (h : CallsOk p engine captures s book) {i : Nat} {capture : Capture}
    (hcap : captures[i]? = some capture) {progress : Progress} {db' : Db}
    (hinc : db'.incidents = s.db.incidents) (hatt : db'.attacks = s.db.attacks)
    (hnext : s.db.nextIncident ≤ db'.nextIncident)
    (hpend : ∀ w, progress.pending = some w → PendingOk p s.db capture w)
    (hkey : ∀ w key, progress.written = some (w, key) → KeyOk db' w key ∧
      (w.found = none → ∀ j w', (s.calls j).written = some (w', key) → w'.found = none → j = i))
    (hfl : Flushed p engine capture progress) (hold : (s.calls i).isFinal = false)
    (hnew : progress ≠ .committed) :
    CallsOk p engine captures { s.set i progress with db := db' } book := by
  have hself : ({ s.set i progress with db := db' } : Calls).calls i = progress :=
    Function.update_self ..
  have hother : ∀ j, j ≠ i → ({ s.set i progress with db := db' } : Calls).calls j = s.calls j :=
    fun j hj => Function.update_of_ne hj ..
  have hgrow : Grows s.db db' := fun row hrow hst => ⟨row, hinc ▸ hrow, rfl, rfl, hst, Or.inl rfl⟩
  refine
    { correlated := h.correlated.congr hinc hatt hnext
      pending := fun j c w hc hw => ?_
      key := fun j w key hw => ?_
      distinct := fun j k w w' key hw hw' hf hf' => ?_
      flushed := fun j c hc => ?_
      order_nodup := h.order_nodup
      order_mem := fun j => ?_ }
  · by_cases hj : j = i
    · subst hj
      rw [hself] at hw
      obtain rfl : capture = c := Option.some.inj (hcap.symm.trans hc)
      exact ⟨(hpend w hw).loaded.grow hgrow, (hpend w hw).incident⟩
    · rw [hother j hj] at hw
      have hok := h.pending j c w hc hw
      exact ⟨hok.loaded.grow hgrow, hok.incident⟩
  · by_cases hj : j = i
    · subst hj
      rw [hself] at hw
      exact (hkey w key hw).1
    · rw [hother j hj] at hw
      have hok := h.key j w key hw
      refine ⟨hok.found, fun hf => ⟨(hok.fresh hf).1.trans_le hnext, ?_⟩⟩
      rw [hinc]
      exact (hok.fresh hf).2
  · by_cases hj : j = i
    · by_cases hk : k = i
      · rw [hj, hk]
      · rw [hother k hk] at hw'
        rw [hj, hself] at hw
        rw [hj, (hkey w key hw).2 hf k w' hw' hf']
    · rw [hother j hj] at hw
      by_cases hk : k = i
      · rw [hk, hself] at hw'
        rw [hk, (hkey w' key hw').2 hf' j w hw hf]
      · rw [hother k hk] at hw'
        exact h.distinct j k w w' key hw hw' hf hf'
  · by_cases hj : j = i
    · subst hj
      obtain rfl : capture = c := Option.some.inj (hcap.symm.trans hc)
      rw [hself]
      exact hfl
    · rw [hother j hj]
      exact h.flushed j c hc
  · show j ∈ s.order ↔ _
    rw [h.order_mem]
    by_cases hj : j = i
    · subst hj
      rw [hself]
      exact iff_of_false (fun he => by rw [he] at hold; exact absurd hold (by decide)) hnew
    · rw [hother j hj]

theorem id_of_mem_commit {capture : Capture} {w : Pending} {key attackKey : Nat} {r : Incident}
    (hr : r ∈ (commitOf p db capture w key attackKey).incidents) :
    (∃ r₀ ∈ db.incidents, r₀.id = r.id) ∨ w.found = none ∧ r.id = key := by
  cases hf : w.found with
  | none =>
    simp only [commitOf, Db.putAttack, Db.putIncident, hf, List.mem_append, List.mem_singleton] at hr
    rcases hr with hr | rfl
    · exact Or.inl ⟨r, hr, rfl⟩
    · exact Or.inr ⟨rfl, rfl⟩
  | some loaded =>
    simp only [commitOf, Db.putAttack, Db.putIncident, hf] at hr
    obtain ⟨r₀, hr₀, rfl⟩ := List.mem_map.mp hr
    refine Or.inl ⟨r₀, hr₀, ?_⟩
    split <;> rfl

theorem nextIncident_commit {capture : Capture} {w : Pending} {key attackKey : Nat} :
    db.nextIncident ≤ (commitOf p db capture w key attackKey).nextIncident := by
  cases hf : w.found with
  | none =>
    simp only [commitOf, Db.putAttack, Db.putIncident, hf]
    omega
  | some loaded => simp [commitOf, Db.putAttack, Db.putIncident, hf]

/-- A current commit keeps the calls in order and appends to the history of its address. -/
theorem CallsOk.commit (h : CallsOk p engine captures s book) {i : Nat} {capture : Capture}
    (hcap : captures[i]? = some capture) {w : Pending} {key attackKey : Nat}
    (hi : s.calls i = .flushedAttack w key attackKey)
    (hsel : selectIncident engine s.db.incidents capture.sourceIp = w.found) :
    CallsOk p engine captures
      { db := commitOf p s.db capture w key attackKey
        calls := Function.update s.calls i .committed
        order := s.order ++ [i] }
      (Function.update book capture.sourceIp
        ((book capture.sourceIp).apply (.attack (p.draft capture w.prior).attack))) := by
  have hw := h.pending i capture w hcap (by rw [hi]; rfl)
  have hwritten : (s.calls i).written = some (w, key) := by rw [hi]; rfl
  have hk := h.key i w key hwritten
  have hgrow := h.correlated.grows_commit attackKey hw hk hsel
  have hpend : ∀ j {w' : Pending}, (Function.update s.calls i .committed j).pending = some w' →
      (s.calls j).pending = some w' := by
    intro j w' hw'
    by_cases hji : j = i
    · rw [hji, Function.update_self] at hw'
      exact absurd hw' (by simp [Progress.pending])
    · rwa [Function.update_of_ne hji] at hw'
  have hwr : ∀ j {x : Pending × Nat}, (Function.update s.calls i .committed j).written = some x →
      j ≠ i ∧ (s.calls j).written = some x := by
    intro j x hx
    by_cases hji : j = i
    · rw [hji, Function.update_self] at hx
      exact absurd hx (by simp [Progress.written])
    · rw [Function.update_of_ne hji] at hx
      exact ⟨hji, hx⟩
  refine
    { correlated := h.correlated.commit hw hk hsel
      pending := fun j c w' hc hw' => ?_
      key := fun j w' key' hw' => ?_
      distinct := fun j k w₁ w₂ key' h₁ h₂ hf₁ hf₂ => ?_
      flushed := fun j c hc => ?_
      order_nodup := ?_
      order_mem := fun j => ?_ }
  · have hok := h.pending j c w' hc (hpend j hw')
    exact ⟨hok.loaded.grow hgrow, hok.incident⟩
  · obtain ⟨hji, hj⟩ := hwr j hw'
    have hok := h.key j w' key' hj
    refine ⟨hok.found, fun hf => ⟨(hok.fresh hf).1.trans_le nextIncident_commit, fun r hr he => ?_⟩⟩
    rcases id_of_mem_commit hr with ⟨r₀, hr₀, hid⟩ | ⟨hnone, hid⟩
    · exact (hok.fresh hf).2 r₀ hr₀ (hid.trans he)
    · refine hji (h.distinct j i w' w key' hj ?_ hf hnone)
      rw [hwritten, ← he, hid]
  · exact h.distinct j k w₁ w₂ key' (hwr j h₁).2 (hwr k h₂).2 hf₁ hf₂
  · show Flushed p engine c (Function.update s.calls i .committed j)
    by_cases hji : j = i
    · rw [hji, Function.update_self]
      trivial
    · rw [Function.update_of_ne hji]
      exact h.flushed j c hc
  · have hnotin : i ∉ s.order := by
      rw [h.order_mem, hi]
      exact fun he => Progress.noConfusion he
    refine List.nodup_append.mpr ⟨h.order_nodup, List.nodup_singleton i, ?_⟩
    rintro a ha b hb rfl
    exact hnotin (List.mem_singleton.mp hb ▸ ha)
  · show j ∈ s.order ++ [i] ↔ Function.update s.calls i .committed j = .committed
    rw [List.mem_append, List.mem_singleton, h.order_mem]
    by_cases hji : j = i
    · simp [hji]
    · simp [hji]

theorem CallsOk.start (h : Correlated db book) : CallsOk p engine captures (.start db) book where
  correlated := h
  pending := fun _ _ _ _ hw => absurd hw (by simp [Calls.start, Progress.pending])
  key := fun _ _ _ hw => absurd hw (by simp [Calls.start, Progress.written])
  distinct := fun _ _ _ _ _ hw => absurd hw (by simp [Calls.start, Progress.written])
  flushed := fun _ _ _ => trivial
  order_nodup := List.nodup_nil
  order_mem := fun _ => by simp [Calls.start]

theorem CallsOk.advance (h : CallsOk p engine captures s book) {i : Nat} {capture : Capture}
    (hcap : captures[i]? = some capture) (hm : Moved p engine s i capture s') :
    CallsOk p engine captures s' book ∧ s'.order = s.order ∧ (s.calls i).isFinal = false ∨
      ∃ w key attackKey, s.calls i = .flushedAttack w key attackKey ∧
        s' = { db := commitOf p s.db capture w key attackKey
               calls := Function.update s.calls i .committed
               order := s.order ++ [i] } := by
  cases hm with
  | counted hi hwindow =>
    refine Or.inl ⟨h.move hcap rfl rfl le_rfl ?_ ?_ hwindow (by rw [hi]; rfl) (by simp), rfl, by rw [hi]; rfl⟩
    · exact fun w hw => absurd hw (by simp [Progress.pending])
    · exact fun w key hw => absurd hw (by simp [Progress.written])
  | @selected prior hi =>
    have hwindow := h.flushed i capture hcap
    rw [hi] at hwindow
    refine Or.inl ⟨h.move hcap rfl rfl le_rfl ?_ ?_ hwindow (by rw [hi]; rfl) (by simp), rfl, by rw [hi]; rfl⟩
    · rintro w hw
      obtain rfl := Option.some.inj hw
      have hfound : (correlate engine s.db.incidents (p.draft capture prior).correlateArgs).1 =
        selectIncident engine s.db.incidents capture.sourceIp := rfl
      refine ⟨fun loaded hl => ?_, rfl⟩
      obtain ⟨hmem, hip, hst⟩ := h.correlated.open_of_select (hfound ▸ hl)
      exact ⟨loaded, hmem, rfl, hip, hst, Or.inl rfl⟩
    · exact fun w key hw => absurd hw (by simp [Progress.written])
  | failed hi =>
    refine Or.inl ⟨h.move hcap rfl rfl le_rfl ?_ ?_ trivial hi (by simp), rfl, hi⟩
    · exact fun w hw => absurd hw (by simp [Progress.pending])
    · exact fun w key hw => absurd hw (by simp [Progress.written])
  | @flushedIncident w hi hacc =>
    have hpend := h.pending i capture w hcap (by rw [hi]; rfl)
    have hwindow := h.flushed i capture hcap
    rw [hi] at hwindow
    refine Or.inl ⟨h.move hcap rfl rfl ?_ ?_ ?_ ⟨hwindow, hacc⟩ (by rw [hi]; rfl) (by simp), rfl, by rw [hi]; rfl⟩
    · cases hf : w.found <;> simp [Db.takeIncidentKey]
    · rintro w' hw'
      obtain rfl := Option.some.inj hw'
      exact hpend
    · rintro w' key hw'
      obtain ⟨rfl, rfl⟩ := Prod.mk.inj (Option.some.inj hw')
      refine ⟨⟨fun loaded hl => by rw [Db.incidentKey, hl]; rfl, fun hf => ?_⟩, fun hf j w' hw' hf' => ?_⟩
      · rw [Db.incidentKey, Db.takeIncidentKey, hf]
        exact ⟨Nat.lt_succ_self _, fun r hr => (h.correlated.keys_lt r hr).ne⟩
      · rw [Db.incidentKey, hf] at hw'
        exact absurd ((h.key j w' _ hw').fresh hf').1 (lt_irrefl _)
  | @flushedAttack w key hi hatt hcmd =>
    have hpend := h.pending i capture w hcap (by rw [hi]; rfl)
    have hwritten : (s.calls i).written = some (w, key) := by rw [hi]; rfl
    have hacc := h.flushed i capture hcap
    rw [hi] at hacc
    refine Or.inl ⟨h.move hcap rfl rfl le_rfl ?_ ?_ ⟨hacc.1, hacc.2, hatt, hcmd⟩ (by rw [hi]; rfl) (by simp), rfl,
      by rw [hi]; rfl⟩
    · rintro w' hw'
      obtain rfl := Option.some.inj hw'
      exact hpend
    · rintro w' key' hw'
      obtain ⟨rfl, rfl⟩ := Prod.mk.inj (Option.some.inj hw')
      have hk := h.key i w key hwritten
      exact ⟨⟨hk.found, hk.fresh⟩, fun hf j w' hw' hf' => h.distinct j i w' w key hw' hwritten hf' hf⟩
  | committed hi => exact Or.inr ⟨_, _, _, hi, rfl⟩

theorem rowCurrent_iff {i : Nat} {capture : Capture} (hcap : captures[i]? = some capture) {w : Pending}
    {key attackKey : Nat} (hi : s.calls i = .flushedAttack w key attackKey) :
    RowCurrent engine captures s i ↔ selectIncident engine s.db.incidents capture.sourceIp = w.found := by
  rw [RowCurrent, hcap, hi]

/-- A step that is current keeps the calls in order. -/
theorem CallsOk.step (h : CallsOk p engine captures s book) {i : Nat}
    (hs : SentinelSsh.Core.advance p engine captures s i = some s') (hr : RowCurrent engine captures s i) :
    ∃ book', CallsOk p engine captures s' book' := by
  obtain ⟨capture, hcap, hm⟩ := advance_moved hs
  rcases h.advance hcap hm with ⟨hok, -⟩ | ⟨w, key, attackKey, hi, rfl⟩
  · exact ⟨book, hok⟩
  · exact ⟨_, h.commit hcap hi ((rowCurrent_iff hcap hi).mp hr)⟩

/-- A step that leaves the table consistent was current. -/
theorem CallsOk.rowCurrent (h : CallsOk p engine captures s book) {i : Nat}
    (hs : SentinelSsh.Core.advance p engine captures s i = some s') (hc : s'.db.Consistent) :
    RowCurrent engine captures s i := by
  obtain ⟨capture, hcap, hm⟩ := advance_moved hs
  rcases h.advance hcap hm with ⟨-, -, hfinal⟩ | ⟨w, key, attackKey, hi, rfl⟩
  · unfold RowCurrent
    split
    · next hi =>
      rw [hi] at hfinal
      exact absurd hfinal (by simp [Progress.isFinal])
    · trivial
  · rw [rowCurrent_iff hcap hi]
    have hw := h.pending i capture w hcap (by rw [hi]; rfl)
    have hk := h.key i w key (by rw [hi]; rfl)
    cases hf : w.found with
    | none =>
      cases hsel : selectIncident engine s.db.incidents capture.sourceIp with
      | none => rfl
      | some row => exact absurd hc (h.correlated.not_consistent_of_new hw hf hsel)
    | some loaded =>
      by_contra hsel
      exact h.correlated.not_consistent_of_found hw hk hf hsel hc

/-! ## The serial order of the commits -/

/-- The number of prior attempts matters only through the two thresholds. -/
theorem draft_congr (capture : Capture) {m n : Int} (hpos : 0 < m ↔ 0 < n)
    (hrep : p.config.repeatedAttemptsThreshold ≤ capture.authAttempts + m ↔
      p.config.repeatedAttemptsThreshold ≤ capture.authAttempts + n) :
    p.draft capture m = p.draft capture n := by
  have hbehavior : ∀ b : Bool,
      detect p.unicode p.config ⟨capture.username, capture.commands.map (·.command),
          capture.authAttempts, m, b⟩ =
        detect p.unicode p.config ⟨capture.username, capture.commands.map (·.command),
          capture.authAttempts, n, b⟩ := by
    intro b
    simp only [detect, ge_iff_le, gt_iff_lt, hpos, hrep]
  have hrisk : ∀ (e : EnrichmentResult) (b : Bool) (r : BehaviorResult),
      riskScore p.unicode p.config ⟨e, b, capture.username, capture.authAttempts, m, r⟩ =
        riskScore p.unicode p.config ⟨e, b, capture.username, capture.authAttempts, n, r⟩ := by
    intro e b r
    simp only [riskScore, ge_iff_le, gt_iff_lt, hpos, hrep]
  simp only [IngestPipeline.draft, hbehavior, hrisk]

/-- The prior attempts of an address are counted in its history. -/
theorem Correlated.count_eq (h : Correlated db book) (ip : String) (before : Python.Datetime) :
    p.priorAttempts engine db.attacks ip before =
      ((book ip).attacks.countP (p.inHistory engine ip before) : Int) := by
  rw [priorAttempts_attacksOf, ← h.attacks ip, List.countP_map]
  rfl

theorem map_eq_of_forall₂ {α β γ : Type*} {f : α → γ} {g : β → γ} {l : List α} {l' : List β}
    (h : List.Forall₂ (fun x y => f x = g y) l l') : l.map f = l'.map g := by
  induction h with
  | nil => rfl
  | cons hxy _ ih => rw [List.map_cons, List.map_cons, hxy, ih]

/-- Databases that hold the same histories have the same tables, keys apart. -/
theorem Correlated.sameTables {db' : Db} (h : Correlated db book) (h' : Correlated db' book) :
    SameTables db db' := by
  have hcols : ∀ {d : Db}, Correlated d book → ∀ ip, (d.incidentsOf ip).map Incident.toIncidentCols =
      (book ip).pieces.map fun q => q.1.incident q.2 := fun hd ip =>
    map_eq_of_forall₂ ((hd.rows ip).imp fun _ _ hrow => hrow.cols)
  have hlinked : ∀ {d : Db}, Correlated d book → ∀ ip,
      (d.incidentsOf ip).map (fun i => (d.linked i.id).map Attack.toAttackCols) =
        (book ip).pieces.map fun q => q.1.attacks := fun hd ip =>
    map_eq_of_forall₂ ((hd.rows ip).imp fun _ _ hrow => hrow.linked)
  exact
    { incidents := fun ip => (hcols h ip).trans (hcols h' ip).symm
      attacks := fun ip => (h.attacks ip).trans (h'.attacks ip).symm
      linked := fun ip => (hlinked h ip).trans (hlinked h' ip).symm }

/-- The events of a serial run of the calls `order`. -/
def serialEvents (captures : List Capture) (order : List Nat) : List Event :=
  order.filterMap fun i => captures[i]?.map .ingest

/-- What a concurrent run has in common with a serial one: the histories. -/
def Serial (p : IngestPipeline) (engine : Engine) (captures : List Capture) (es : List Event)
    (s : Calls) : Prop :=
  ∃ book s₁, CallsOk p engine captures s book ∧ Correlated s₁.db book ∧
    Runs.run (loggedStep p engine) {} (es ++ serialEvents captures s.order) = some s₁

/-- A step whose reads are current can be repeated by the serial run. -/
theorem serial_step {es : List Event} (h : Serial p engine captures es s) {i : Nat}
    (hs : SentinelSsh.Core.advance p engine captures s i = some s') (hr : RowCurrent engine captures s i)
    (hn : CountCurrent p engine captures s i) : Serial p engine captures es s' := by
  obtain ⟨book, s₁, hok, hcor, hrun⟩ := h
  obtain ⟨capture, hcap, hm⟩ := advance_moved hs
  rcases hok.advance hcap hm with ⟨hok', hord, -⟩ | ⟨w, key, attackKey, hi, rfl⟩
  · exact ⟨book, s₁, hok', hcor, by rw [hord]; exact hrun⟩
  · have hsel := (rowCurrent_iff hcap hi).mp hr
    have hw := hok.pending i capture w hcap (by rw [hi]; rfl)
    have hfl := hok.flushed i capture hcap
    rw [hi] at hfl
    obtain ⟨hwindow, hacc, hatt, hcmd⟩ := hfl
    rw [CountCurrent, hcap, hi] at hn
    obtain ⟨hpos, hrep⟩ := hn
    set d := p.draft capture w.prior with hd
    have hd₁ : d = p.draft capture
        (p.priorAttempts engine s₁.db.attacks capture.sourceIp (p.captureTs capture)) := by
      rw [hcor.count_eq, ← hok.correlated.count_eq]
      exact draft_congr capture hpos hrep
    have hdesc := draft_describes p capture w.prior
    have hinc : (correlate engine s₁.db.incidents d.correlateArgs).2 = w.incident := by
      have h₀ := congrArg Prod.snd (hw.correlate_eq hsel)
      rw [(hok.correlated.correlate_cols engine hdesc).2] at h₀
      rw [(hcor.correlate_cols engine hdesc).2, h₀]
    obtain ⟨db₁', snap, hproc⟩ :=
      process_of_accepts s₁.db hwindow hd₁ (by rw [hinc]; exact hacc) hatt hcmd
    obtain ⟨a, ha, -, hcor'⟩ := hcor.process hproc
    have hstep : step p engine s₁.db (.ingest capture) = some db₁' := by
      rw [step, hproc]
      rfl
    refine ⟨_, ⟨db₁', s₁.log ++ (entryOf s₁.db db₁' (.ingest capture)).toList⟩,
      hok.commit hcap hi hsel, ?_, ?_⟩
    · rw [← hd₁] at ha
      rw [ha] at hcor'
      exact hcor'
    · rw [serialEvents, List.filterMap_append, ← List.append_assoc]
      refine Runs.run_append.mpr ⟨s₁, hrun, ?_⟩
      rw [List.filterMap_cons, hcap, Option.map_some, List.filterMap_nil]
      refine Runs.run_cons.mpr ⟨_, ?_, rfl⟩
      rw [loggedStep, hstep]
      rfl

end

/-! ## Runs -/

section

variable {p : IngestPipeline} {engine : Engine} {captures : List Capture} {es : List Event}
  {s₀ : Logged}

/-- Concurrent calls from a database that was filled before. The incident table is consistent all
along if and only if every commit is current; and when the counts are current too, the tables are,
keys apart, those of the serial run of the same calls in the order of their commits. -/
theorem concurrent_calls (hr : Runs.run (loggedStep p engine) {} es = some s₀) (is : List Nat) :
    (Runs.Always (advance p engine captures) (fun s => s.db.Consistent) (.start s₀.db) is ↔
        Runs.Guarded (advance p engine captures) (RowCurrent engine captures) (.start s₀.db) is) ∧
      ∀ s, Runs.run (advance p engine captures) (.start s₀.db) is = some s →
        Runs.Guarded (advance p engine captures)
          (fun s i => RowCurrent engine captures s i ∧ CountCurrent p engine captures s i) (.start s₀.db) is →
        ∃ s₁, Runs.run (loggedStep p engine) {} (es ++ serialEvents captures s.order) = some s₁ ∧
          SameTables s.db s₁.db ∧ s.order.Nodup ∧ ∀ i, i ∈ s.order ↔ s.calls i = .committed := by
  have hcor := correlated_run hr
  constructor
  · refine Runs.always_iff_guarded (I := fun s => ∃ book, CallsOk p engine captures s book) ?_ ?_ ?_
      ⟨_, .start hcor⟩
    · rintro s i s' ⟨book, h⟩ hg hs
      exact h.step hs hg
    · rintro s ⟨book, h⟩
      exact h.correlated.consistent
    · rintro s i s' ⟨book, h⟩ hs hc
      exact h.rowCurrent hs hc
  · intro s hs hg
    have hstart : Serial p engine captures es (.start s₀.db) :=
      ⟨_, s₀, .start hcor, hcor, by rw [serialEvents, Calls.start, List.filterMap_nil, List.append_nil,
        hr]⟩
    obtain ⟨book, s₁, hok, hcor₁, hrun⟩ := Runs.run_invariant_of_guarded
      (fun s i s' h hg hs => serial_step h hs hg.1 hg.2) hstart hg hs
    exact ⟨s₁, hrun, hok.correlated.sameTables hcor₁, hok.order_nodup, hok.order_mem⟩

/-- Two sessions of one address and one of another. -/
def sampleCaptures : List Capture :=
  [.guess "2026-01-01T00:00:10+00:00" "8.8.8.8", .guess "2026-01-01T00:00:10+00:00" "1.1.1.1",
    .guess "2026-01-01T00:00:20+00:00" "8.8.8.8"]

/-- Two sessions of different addresses and a later one of the first: all reads are current. -/
theorem concurrent_calls_interleaved :
    ∃ s, Runs.run (advance .twoInstants .postgres sampleCaptures) (.start {})
        [0, 1, 1, 0, 0, 1, 1, 0, 1, 0, 2, 2, 2, 2, 2] = some s ∧
      ∃ s₁, Runs.run (loggedStep .twoInstants .postgres) {}
          ([] ++ serialEvents sampleCaptures s.order) = some s₁ ∧
        SameTables s.db s₁.db ∧ s.order.Nodup ∧ ∀ i, i ∈ s.order ↔ s.calls i = .committed := by
  have hsome : (Runs.run (advance .twoInstants .postgres sampleCaptures) (.start {})
      [0, 1, 1, 0, 0, 1, 1, 0, 1, 0, 2, 2, 2, 2, 2]).isSome = true := by with_unfolding_all decide
  have hguard : Runs.Guarded (advance .twoInstants .postgres sampleCaptures)
      (fun s i => RowCurrent .postgres sampleCaptures s i ∧ CountCurrent .twoInstants .postgres sampleCaptures s i)
      (.start {}) [0, 1, 1, 0, 0, 1, 1, 0, 1, 0, 2, 2, 2, 2, 2] := by with_unfolding_all decide
  obtain ⟨s, hs⟩ := Option.isSome_iff_exists.mp hsome
  have hempty : Runs.run (loggedStep .twoInstants .postgres) {} [] = some {} := rfl
  exact ⟨s, hs, (concurrent_calls hempty _).2 s hs hguard⟩

/-- Two sessions of one address that both look for its incident before either of them commits. -/
theorem not_consistent_overlapping :
    ¬ ∀ (p : IngestPipeline) (engine : Engine) (captures : List Capture) (is : List Nat) (s : Calls),
        Runs.run (advance p engine captures) (.start {}) is = some s →
        (∀ i < captures.length, s.calls i = .committed) → s.db.Consistent := by
  intro h
  have hrun : ((Runs.run (advance .twoInstants .postgres (sampleCaptures.take 1 ++ sampleCaptures.drop 2))
      (.start {}) [0, 1, 0, 1, 0, 0, 0, 1, 1, 1]).any fun s =>
      ((List.range 2).all fun i => s.calls i = .committed) &&
        1 < ((s.db.incidentsOf "8.8.8.8").filter (·.status ≠ .closed)).length) = true := by
    with_unfolding_all decide
  obtain ⟨s, hr, hs⟩ := (Option.any_eq_true _ _).mp hrun
  rw [Bool.and_eq_true, List.all_eq_true] at hs
  have hc := h _ _ _ _ s hr fun i hi => of_decide_eq_true (hs.1 i (List.mem_range.mpr hi))
  exact absurd (hc.single "8.8.8.8") (not_le.mpr (of_decide_eq_true hs.2))

end

end SentinelSsh.Core
