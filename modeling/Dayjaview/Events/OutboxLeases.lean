import Dayjaview.Events.OutboxRuns

/-!
# Leases of the outbox

A claim keeps the others away from its record until its lease ends, because the
record stays claimed that long. Writing back a failed delivery makes the record
available from the retry time on, whoever holds a claim on it by then.
-/

namespace Dayjaview.Events

/-- The lease of a call is over at some time. -/
def PublisherCall.LeaseOver (c : PublisherCall) (now : Datetime) : Prop :=
  ∀ leaseEnd ∈ (c.now.plus c.publisher.lease).toOption, leaseEnd ≤ now

instance (c : PublisherCall) (now : Datetime) : Decidable (c.LeaseOver now) :=
  inferInstanceAs (Decidable (∀ leaseEnd ∈ (c.now.plus c.publisher.lease).toOption, leaseEnd ≤ now))

/-- The record a call is about to release, and the time from which on it is available then. -/
def PublisherCall.release? (c : PublisherCall) : Option (OutboxRecord × Datetime) :=
  match c.records, c.answer with
  | record :: _, some (.raised _) =>
    (c.now.plus c.publisher.retryDelay).toOption.map fun retryAt => (record, retryAt)
  | _, _ => none

namespace OutboxRun

/-- The records a step hands to a publisher. -/
def handedOut (r : OutboxRun) (x : OutboxStep) : List OutboxRecord :=
  match x.action with
  | .publishPending publisher limit =>
    match (PublisherCall.publishPending publisher r.store x.time limit).1 with
    | .ok c => c.records
    | .error _ => []
  | _ => []

/-- A step hands out no record that another call holds under a lease that is not over. -/
def Exclusive (r : OutboxRun) (x : OutboxStep) : Prop :=
  ∀ record ∈ r.handedOut x, ∀ other ∈ r.calls, ∀ held ∈ other.records,
    held.message.messageId = record.message.messageId → other.LeaseOver x.time

instance (r : OutboxRun) (x : OutboxStep) : Decidable (r.Exclusive x) :=
  inferInstanceAs (Decidable (∀ record ∈ r.handedOut x, ∀ other ∈ r.calls,
    ∀ held ∈ other.records, held.message.messageId = record.message.messageId →
      other.LeaseOver x.time))

/-- The call whose answer a step writes back. -/
def writesBack (x : OutboxStep) : Option Nat :=
  match x.action with
  | .writeBack call => some call
  | _ => none

/-- A step releases no record that another call holds under a lease that is not over when the record
becomes available. -/
def ReleasesOwn (r : OutboxRun) (x : OutboxStep) : Prop :=
  ∀ call ∈ writesBack x, ∀ c ∈ r.calls[call]?, ∀ release ∈ c.release?,
    (∀ record ∈ r.store.outbox.get? release.1.message.messageId, record.status ≠ .published) →
    ∀ other ∈ r.calls.eraseIdx call, ∀ held ∈ other.records,
      held.message.messageId = release.1.message.messageId →
      other.LeaseOver x.time ∨ other.LeaseOver release.2

instance (r : OutboxRun) (x : OutboxStep) : Decidable (r.ReleasesOwn x) :=
  inferInstanceAs (Decidable (∀ call ∈ writesBack x, ∀ c ∈ r.calls[call]?,
    ∀ release ∈ c.release?,
    (∀ record ∈ r.store.outbox.get? release.1.message.messageId, record.status ≠ .published) →
    ∀ other ∈ r.calls.eraseIdx call, ∀ held ∈ other.records,
      held.message.messageId = release.1.message.messageId →
      other.LeaseOver x.time ∨ other.LeaseOver release.2))

/-- A record keeps the others away until a time that is not over. -/
def Guarded (record : OutboxRecord) (leaseEnd now : Datetime) : Prop :=
  record.status = .published ∨ leaseEnd ≤ now ∨
    (record.status = .claimed ∧ ∃ claimedUntil, record.claimedUntil = some claimedUntil ∧
      leaseEnd ≤ claimedUntil) ∨
    (record.status = .pending ∧ leaseEnd ≤ record.availableAt)

theorem Guarded.mono {record : OutboxRecord} {leaseEnd now later : Datetime}
    (h : Guarded record leaseEnd now) (hle : now ≤ later) : Guarded record leaseEnd later := by
  rcases h with h | h | h | h
  · exact .inl h
  · exact .inr (.inl (le_trans h hle))
  · exact .inr (.inr (.inl h))
  · exact .inr (.inr (.inr h))

theorem Guarded.over {record : OutboxRecord} {leaseEnd now : Datetime}
    (h : Guarded record leaseEnd now) (hdue : record.Claimable now) : leaseEnd ≤ now := by
  obtain ⟨hstatus, havailable, hclaim⟩ := hdue
  rcases h with h | h | ⟨hclaimed, claimedUntil, huntil, hle⟩ | ⟨-, hle⟩
  · exact absurd h hstatus
  · exact h
  · rcases hclaim with hpending | hover
    · rw [hclaimed] at hpending
      cases hpending
    · exact le_trans hle (hover claimedUntil huntil)
  · exact le_trans hle havailable

/-- What is known of the claims between two steps. -/
structure Leased (r : OutboxRun) (now : Datetime) : Prop where
  nodup : ∀ c ∈ r.calls, (c.records.map fun record => record.message.messageId).Nodup
  guarded : ∀ c ∈ r.calls, ∀ held ∈ c.records, ∃ leaseEnd record,
    c.now.plus c.publisher.lease = .ok leaseEnd ∧
      r.store.outbox.get? held.message.messageId = some record ∧ Guarded record leaseEnd now

theorem leased_start (now : Datetime) : Leased start now where
  nodup := by
    intro c hc
    cases hc
  guarded := by
    intro c hc
    cases hc

variable {r : OutboxRun}

theorem Leased.mono {now later : Datetime} (h : Leased r now) (hle : now ≤ later) :
    Leased r later := by
  refine ⟨h.nodup, fun c hc held hheld => ?_⟩
  obtain ⟨leaseEnd, record, hlease, hget, hguard⟩ := h.guarded c hc held hheld
  exact ⟨leaseEnd, record, hlease, hget, hguard.mono hle⟩

theorem mem_toOption {α : Type} {x : Except Error α} {a : α} : a ∈ x.toOption ↔ x = .ok a :=
  toOption_eq_some

theorem exclusive_of_leased {x : OutboxStep} (hkeyed : r.store.Keyed) (h : Leased r x.time) :
    r.Exclusive x := by
  intro record hrecord other hother held hheld hid leaseEnd hlease
  unfold handedOut at hrecord
  split at hrecord
  · next publisher limit haction =>
    split at hrecord
    · next c hcall =>
      obtain ⟨-, -, -, hclaim, -⟩ := PublisherCall.publishPending_ok hcall
      obtain ⟨stored, -, hget, hdue, -⟩ :=
        InMemoryEventStore.claimPending_ok hkeyed hclaim hrecord
      obtain ⟨leaseEnd', stored', hlease', hget', hguard⟩ := h.guarded other hother held hheld
      obtain rfl := Except.ok.inj (hlease'.symm.trans (mem_toOption.mp hlease))
      rw [hid, hget] at hget'
      cases hget'
      exact hguard.over hdue
    · cases hrecord
  · cases hrecord

variable [Sha256]

theorem Leased.step {x : OutboxStep} (hdelivered : r.Delivered) (h : Leased r x.time)
    (hown : r.ReleasesOwn x) : Leased (r.step x) x.time := by
  -- what a call that was there and goes on holds stays guarded
  have hguard : ∀ (i : Nat) (c c' : PublisherCall), r.calls[i]? = some c → (r.step x).calls[i]? =
      some c' → ∀ held ∈ c.records, held ∈ c'.records → ∃ leaseEnd record,
        c.now.plus c.publisher.lease = .ok leaseEnd ∧
          (r.step x).store.outbox.get? held.message.messageId = some record ∧
          Guarded record leaseEnd x.time := by
    intro i c c' hi hi' held hheld hheld'
    obtain ⟨leaseEnd, record, hlease, hget, hguard⟩ :=
      h.guarded c (List.mem_of_getElem? hi) held hheld
    have hstep := step_record hdelivered.keyed x held.message.messageId
    rw [hget] at hstep
    refine ⟨leaseEnd, ?_⟩
    generalize (r.step x).store.outbox.get? held.message.messageId = after at hstep
    cases hstep with
    | same => exact ⟨record, hlease, rfl, hguard⟩
    | claimed _ claimedUntil hdue => exact ⟨_, hlease, rfl, .inr (.inl (hguard.over hdue))⟩
    | published => exact ⟨_, hlease, rfl, .inl rfl⟩
    | released _ first call c₀ retryAt error haction hcall hfirst hid hanswer hretry hnext
        hstatus =>
      refine ⟨_, hlease, rfl, ?_⟩
      by_cases hsame : i = call
      · subst hsame
        obtain rfl := Option.some.inj (hi.symm.trans hcall)
        obtain ⟨c₁, hi₁, hrecords⟩ := hnext
        obtain rfl := Option.some.inj (hi'.symm.trans hi₁)
        -- the record that was released was the first one of the call, which goes on without it
        have hnodup := h.nodup c (List.mem_of_getElem? hi)
        rw [hrecords, List.map_cons, List.nodup_cons] at hnodup
        rw [hid] at hnodup
        exact absurd (List.mem_map_of_mem hheld') hnodup.1
      · have hrelease : (first, retryAt) ∈ c₀.release? := by
          obtain ⟨rest, hrecords⟩ := List.head?_eq_some_iff.mp hfirst
          simp [PublisherCall.release?, hrecords, hanswer, hretry, Except.toOption]
        have hover := hown call (by simp [writesBack, haction]) c₀ hcall (first, retryAt) hrelease
          (by
            intro record' hget'
            rw [hid, hget] at hget'
            cases hget'
            exact hstatus)
          c (List.mem_eraseIdx_iff_getElem?.mpr ⟨i, hsame, hi⟩) held hheld hid.symm
        rcases hover with hover | hover
        · exact .inr (.inl (hover leaseEnd (mem_toOption.mpr hlease)))
        · exact .inr (.inr (.inr ⟨rfl, hover leaseEnd (mem_toOption.mpr hlease)⟩))
  constructor
  · intro c hc
    obtain ⟨i, hi⟩ := List.getElem?_of_mem hc
    cases step_call r x hi with
    | same _ hcall => exact h.nodup c (List.mem_of_getElem? hcall)
    | started _ publisher limit haction hcall hstore =>
      obtain ⟨-, -, -, hclaim, -⟩ := PublisherCall.publishPending_ok hcall
      exact InMemoryEventStore.claimPending_nodup hdelivered.keyed hclaim
    | answered c answer hcall => exact h.nodup c (List.mem_of_getElem? hcall)
    | wroteBack c₀ _ first hcall haction hrecords =>
      have hnodup := h.nodup c₀ (List.mem_of_getElem? hcall)
      rw [hrecords, List.map_cons] at hnodup
      exact (List.nodup_cons.mp hnodup).2
  · intro c hc held hheld
    obtain ⟨i, hi⟩ := List.getElem?_of_mem hc
    cases step_call r x hi with
    | same _ hcall => exact hguard i c c hcall hi held hheld hheld
    | started _ publisher limit haction hcall hstore =>
      obtain ⟨hpublisher, hnow, -, hclaim, -⟩ := PublisherCall.publishPending_ok hcall
      obtain ⟨record, claimedUntil, -, -, hlease, rfl, hget⟩ :=
        InMemoryEventStore.claimPending_ok hdelivered.keyed hclaim hheld
      refine ⟨claimedUntil, _, by rw [hnow, hpublisher]; exact hlease, by
        rw [hstore]; exact hget, ?_⟩
      exact .inr (.inr (.inl ⟨rfl, claimedUntil, rfl, le_refl _⟩))
    | answered c answer hcall => exact hguard i c _ hcall hi held hheld hheld
    | wroteBack c₀ _ first hcall haction hrecords hsame =>
      have hmem : held ∈ c₀.records := by
        rw [hrecords]
        exact List.mem_cons_of_mem _ hheld
      rw [hsame.1, hsame.2]
      exact hguard i c₀ c hcall hi held hmem hheld

theorem leased_run (xs : List OutboxStep) (hclock : xs.Pairwise fun a b => a.time ≤ b.time)
    (hown : ∀ i x, xs[i]? = some x → (run (xs.take i)).ReleasesOwn x) (now : Datetime)
    (hnow : ∀ x ∈ xs, x.time ≤ now) : Leased (run xs) now := by
  induction xs using List.reverseRecOn generalizing now with
  | nil => exact leased_start now
  | append_singleton xs x ih =>
    obtain ⟨hbefore, -, hlast⟩ := List.pairwise_append.mp hclock
    have hlast : ∀ y ∈ xs, y.time ≤ x.time := fun y hy => hlast y hy x (List.mem_singleton.mpr rfl)
    have hleased : Leased (run xs) x.time := by
      refine ih hbefore (fun i y hy => ?_) x.time hlast
      obtain ⟨hlt, -⟩ := List.getElem?_eq_some_iff.mp hy
      have hown' := hown i y (by rw [List.getElem?_append_left hlt]; exact hy)
      rwa [List.take_append_of_le_length hlt.le] at hown'
    have hownx := hown xs.length x (by simp)
    rw [List.take_left] at hownx
    rw [run_snoc]
    have hmem : x ∈ xs ++ [x] := List.mem_append_right _ (List.mem_singleton.mpr rfl)
    exact (hleased.step (delivered_run xs) hownx).mono (hnow x hmem)

/-- In every run of a clock that does not go back, whose releases are of records held by no other
call, no record is handed out while another call holds it under a lease that is not over. -/
theorem run_excludes (xs : List OutboxStep) (hclock : xs.Pairwise fun a b => a.time ≤ b.time)
    (hown : ∀ i x, xs[i]? = some x → (run (xs.take i)).ReleasesOwn x) (i : Nat) (x : OutboxStep)
    (hx : xs[i]? = some x) : (run (xs.take i)).Exclusive x := by
  obtain ⟨hlt, rfl⟩ := List.getElem?_eq_some_iff.mp hx
  have hsplit : xs = xs.take i ++ xs[i] :: xs.drop (i + 1) := by
    rw [← List.drop_eq_getElem_cons hlt, List.take_append_drop]
  rw [hsplit] at hclock
  obtain ⟨hbefore, -, hlater⟩ := List.pairwise_append.mp hclock
  refine exclusive_of_leased (delivered_run (xs.take i)).keyed ?_
  refine leased_run (xs.take i) hbefore (fun j y hy => ?_) xs[i].time
    (fun y hy => hlater y hy xs[i] (List.mem_cons_self ..))
  obtain ⟨hj, -⟩ := List.getElem?_eq_some_iff.mp hy
  have hji : j < i := by
    rw [List.length_take] at hj
    omega
  have hown' := hown j y (by rw [← List.getElem?_take_of_lt hji]; exact hy)
  rwa [List.take_take, min_eq_left hji.le]

/-- Some seconds past five past nine. -/
def afterFivePastNine (second : Nat) (h : second < 60) : Datetime :=
  { fivePastNine with second, valid := ⟨by decide, by decide, h, by decide, by decide⟩ }

/-- The first delivery fails in time and is repeated. -/
def repeatedDelivery : List OutboxStep :=
  [⟨fivePastNine, .store (.write (.create firstCreation))⟩,
    ⟨fivePastNine, .publishPending publisher 100⟩,
    ⟨afterFivePastNine 2 (by decide), .transport 0 (.raised "ConnectionError: broker")⟩,
    ⟨afterFivePastNine 2 (by decide), .writeBack 0⟩,
    ⟨afterFivePastNine 3 (by decide), .publishPending publisher 100⟩]

omit [Sha256] in
/-- The repeated delivery hands nothing out twice. -/
theorem run_excludes_repeatedDelivery :
    letI : Sha256 := .ofTable []
    ∃ x, repeatedDelivery[4]? = some x ∧ (run (repeatedDelivery.take 4)).Exclusive x := by
  have hown : letI : Sha256 := .ofTable []
      ∀ i (hi : i < repeatedDelivery.length),
        (run (repeatedDelivery.take i)).ReleasesOwn repeatedDelivery[i] := by decide +kernel
  have hexclusive := @run_excludes (.ofTable []) repeatedDelivery
    (by decide +kernel) fun i x hx => by
    obtain ⟨hlt, rfl⟩ := List.getElem?_eq_some_iff.mp hx
    exact hown i hlt
  exact ⟨_, rfl, hexclusive 4 _ rfl⟩

/-- A first call is slow; a second one claims the record once the lease is over; then the first one
fails and releases the record, and a third one claims it. -/
def lateRelease : List OutboxStep :=
  [⟨fivePastNine, .store (.write (.create firstCreation))⟩,
    ⟨fivePastNine, .publishPending publisher 100⟩,
    ⟨afterFivePastNine 30 (by decide), .publishPending publisher 100⟩,
    ⟨afterFivePastNine 31 (by decide), .transport 0 (.raised "ConnectionError: broker")⟩,
    ⟨afterFivePastNine 31 (by decide), .writeBack 0⟩,
    ⟨afterFivePastNine 32 (by decide), .publishPending publisher 100⟩]

omit [Sha256] in
/-- The third call is handed the record while the lease of the second one runs. -/
theorem run_excludes_fails_lateRelease :
    letI : Sha256 := .ofTable []
    ¬ ∀ xs : List OutboxStep, xs.Pairwise (fun a b => a.time ≤ b.time) →
      ∀ i x, xs[i]? = some x → (run (xs.take i)).Exclusive x := by
  intro h
  have hexclusive := h lateRelease (by decide +kernel) 5
    ⟨afterFivePastNine 32 (by decide), .publishPending publisher 100⟩ rfl
  revert hexclusive
  decide +kernel

end OutboxRun

end Dayjaview.Events
