import BankingTransactions.SqlAdapters

/-!
# Whose events the outbox rows are

A commit visits the objects that were seen, takes the pending events of each and adds
a row for every event. The first section is about such visits in general: boxes that
are emptied one after another, and when a label on the things taken out tells which
box each came from. A row is labelled with the id of its event, so that the outbox can
be attributed exactly when that is the id of the aggregate.
-/
namespace BankingTransactions
open InteractionPrograms

/-! ## Emptying boxes -/

section Boxes

variable {κ β ι : Type} [DecidableEq κ]

/-- What is taken out when the boxes are emptied in this order; a second visit finds
nothing. -/
def drain (box : κ → List β) : List κ → List β
  | [] => []
  | k :: ks => box k ++ drain (Function.update box k []) ks

theorem drain_update (box : κ → List β) (k : κ) (ks : List κ) :
    drain (Function.update box k []) ks = drain box (ks.filter (!· == k)) := by
  induction ks generalizing box with
  | nil => rfl
  | cons k' ks ih =>
    by_cases h : k' = k
    · subst h
      simp only [drain, Function.update_self, Function.update_idem, List.nil_append, ih]
      simp
    · rw [List.filter_cons_of_pos (by simpa using h)]
      simp only [drain, Function.update_of_ne h]
      rw [Function.update_comm (Ne.symm h), ih]

/-- Every box is emptied once, on its first visit. -/
theorem drain_eq_flatMap (box : κ → List β) (ks : List κ) :
    drain box ks = ks.eraseDups.flatMap box := by
  induction hn : ks.length using Nat.strong_induction_on generalizing ks with
  | _ n ih =>
    cases ks with
    | nil => rfl
    | cons k ks =>
      have hshort : (ks.filter (!· == k)).length < n := by
        have := List.length_filter_le (!· == k) ks
        simp only [List.length_cons] at hn
        omega
      rw [drain, drain_update, ih _ hshort _ rfl, List.eraseDups_cons, List.flatMap_cons]

theorem nodup_eraseDups (ks : List κ) : ks.eraseDups.Nodup := by
  induction hn : ks.length using Nat.strong_induction_on generalizing ks with
  | _ n ih =>
    cases ks with
    | nil => simp
    | cons k ks =>
      have hshort : (ks.filter (!· == k)).length < n := by
        have := List.length_filter_le (!· == k) ks
        simp only [List.length_cons] at hn
        omega
      rw [List.eraseDups_cons, List.nodup_cons]
      exact ⟨by simp, ih _ hshort _ rfl⟩

variable [DecidableEq ι] {box : κ → List β} {label : β → ι} {owner : κ → ι}

omit [DecidableEq κ] in
theorem filter_flatMap_of_not {ks : List κ} {i : ι}
    (h : ∀ k ∈ ks, ∀ b ∈ box k, label b ≠ i) :
    (ks.flatMap box).filter (fun b => label b = i) = [] := by
  simp only [List.filter_eq_nil_iff, List.mem_flatMap, decide_eq_true_eq]
  rintro b ⟨k, hk, hb⟩
  exact h k hk b hb

omit [DecidableEq κ] in
/-- Sorting by label gives back the boxes exactly when every thing carries the label of
its box and no other box with things in it has that label. -/
theorem filter_flatMap_iff {ks : List κ} (hks : ks.Nodup) :
    (∀ k ∈ ks, (ks.flatMap box).filter (fun b => label b = owner k) = box k) ↔
      (∀ k ∈ ks, ∀ b ∈ box k, label b = owner k) ∧
        ∀ k ∈ ks, ∀ k' ∈ ks, k' ≠ k → owner k' = owner k → box k' = [] := by
  constructor
  · intro h
    have hown : ∀ k ∈ ks, ∀ b ∈ box k, label b = owner k := by
      intro k hk b hb
      rw [← h k hk] at hb
      simpa using (List.mem_filter.mp hb).2
    refine ⟨hown, fun k hk k' hk' hne howner => ?_⟩
    obtain ⟨before, later, rfl⟩ := List.append_of_mem hk
    have hbox : (box k).filter (fun b => label b = owner k) = box k := by
      simpa [List.filter_eq_self] using hown k hk
    -- the box of `k` leaves no room for others under its label
    have hlength := congrArg List.length (h k hk)
    simp only [List.flatMap_append, List.flatMap_cons, List.filter_append, hbox,
      List.length_append] at hlength
    have hothers : ((before ++ later).flatMap box).filter (fun b => label b = owner k) = [] := by
      rw [← List.length_eq_zero_iff, List.flatMap_append, List.filter_append, List.length_append]
      omega
    have hmem : k' ∈ before ++ later := by
      simp only [List.mem_append, List.mem_cons, hne, false_or] at hk' ⊢
      exact hk'
    rw [List.eq_nil_iff_forall_not_mem]
    intro b hb
    have hb' : b ∈ ((before ++ later).flatMap box).filter (fun b => label b = owner k) := by
      rw [List.mem_filter, List.mem_flatMap, decide_eq_true_eq, ← howner]
      exact ⟨⟨k', hmem, hb⟩, hown k' hk' b hb⟩
    rw [hothers] at hb'
    cases hb'
  · rintro ⟨hown, hother⟩ k hk
    obtain ⟨before, later, rfl⟩ := List.append_of_mem hk
    have hfresh : k ∉ before ++ later := (List.nodup_cons.mp (List.nodup_middle.mp hks)).1
    have hnot : ∀ k' ∈ before ++ later, ∀ b ∈ box k', label b ≠ owner k := by
      intro k' hk' b hb hlabel
      have hmem : k' ∈ before ++ k :: later := by
        simp only [List.mem_append, List.mem_cons] at hk' ⊢
        exact hk'.imp_right .inr
      have hne : k' ≠ k := fun h => hfresh (h ▸ hk')
      have howner : owner k' = owner k := (hown k' hmem b hb).symm.trans hlabel
      rw [hother k hk k' hmem hne howner] at hb
      cases hb
    have hbefore := filter_flatMap_of_not fun k' hk' => hnot k' (List.mem_append_left _ hk')
    have hlater := filter_flatMap_of_not fun k' hk' => hnot k' (List.mem_append_right _ hk')
    rw [List.flatMap_append, List.flatMap_cons, List.filter_append, List.filter_append, hbefore,
      hlater, List.append_nil, List.nil_append]
    simpa [List.filter_eq_self] using hown k hk

end Boxes

/-! ## The rows of a commit -/

namespace Heap

/-- The pending events of the account behind a reference. -/
def accountEvents (h : Heap) (ref : AccountRef) : List DomainEvent :=
  (h.accounts[ref]?.map (·.domainEvents)).getD []

def transactionEvents (h : Heap) (ref : TransactionRef) : List DomainEvent :=
  (h.transactions[ref]?.map (·.domainEvents)).getD []

theorem accountEvents_collected {h : Heap} {ref : AccountRef} {a : Account}
    (ha : h.accounts[ref]? = some a) :
    ({ h with accounts := h.accounts.set ref a.collectEvents.2 } : Heap).accountEvents =
      Function.update h.accountEvents ref [] := by
  obtain ⟨href, -⟩ := List.getElem?_eq_some_iff.mp ha
  ext1 ref'
  by_cases h' : ref' = ref
  · subst h'
    simp [accountEvents, href]
  · simp [accountEvents, h', List.getElem?_set_ne (Ne.symm h')]

theorem transactionEvents_collected {h : Heap} {ref : TransactionRef} {tx : Transaction}
    (htx : h.transactions[ref]? = some tx) :
    ({ h with transactions := h.transactions.set ref tx.collectEvents.2 } : Heap).transactionEvents =
      Function.update h.transactionEvents ref [] := by
  obtain ⟨href, -⟩ := List.getElem?_eq_some_iff.mp htx
  ext1 ref'
  by_cases h' : ref' = ref
  · subst h'
    simp [transactionEvents, href, Transaction.collectEvents, AggregateRoot.cleared]
  · simp [transactionEvents, h', List.getElem?_set_ne (Ne.symm h')]

end Heap

namespace SQLAlchemyUnitOfWork

@[simp] theorem addOutbox_addOutbox (w : Flush) (l l' : List OutboxMessage) :
    (w.addOutbox l).addOutbox l' = w.addOutbox (l ++ l') := by
  simp [Flush.addOutbox, List.append_assoc]

@[simp] theorem addOutbox_nil (w : Flush) : w.addOutbox [] = w := by simp [Flush.addOutbox]

theorem run_storeEvents (events : List DomainEvent) (p : Process SqlState) :
    (storeEvents events).run.run p = .ret (.ok (), { p with
      adapters := p.adapters.mapSession (·.addOutbox (events.map OutboxMessage.ofEvent)) }) := rfl

/-- The accounts that were seen are drained in order. -/
theorem run_storeAccountEvents (refs : List AccountRef) (p : Process SqlState)
    (hrefs : ∀ ref ∈ refs, ref < p.heap.accounts.length) :
    ∃ accounts, (storeAccountEvents refs).run.run p = .ret (.ok (),
      ⟨⟨accounts, p.heap.transactions⟩, p.adapters.mapSession
        (·.addOutbox ((drain p.heap.accountEvents refs).map OutboxMessage.ofEvent))⟩) := by
  induction refs generalizing p with
  | nil =>
    refine ⟨p.heap.accounts, ?_⟩
    simp only [drain, List.map_nil, addOutbox_nil]
    rfl
  | cons ref refs ih =>
    have href := hrefs ref List.mem_cons_self
    have ha : p.heap.accounts[ref]? = some p.heap.accounts[ref] := List.getElem?_eq_getElem href
    have hcall : (callAccount ref Account.collect : SqlTask _).run.run p =
        .ret (.ok (p.heap.accountEvents ref), { p with heap := { p.heap with
          accounts := p.heap.accounts.set ref (p.heap.accounts[ref]).collectEvents.2 } }) := by
      show Program.ret _ = _
      simp only [Heap.callAccount, Heap.accountEvents, ha]
      rfl
    rw [storeAccountEvents, Task.run_bind, hcall, Program.ret_bind]
    simp only
    rw [Task.run_bind, run_storeEvents, Program.ret_bind]
    simp only
    obtain ⟨accounts, hrest⟩ := ih ⟨{ p.heap with
        accounts := p.heap.accounts.set ref (p.heap.accounts[ref]).collectEvents.2 },
        p.adapters.mapSession (·.addOutbox ((p.heap.accountEvents ref).map OutboxMessage.ofEvent))⟩
      (by
        intro ref' href'
        simpa using hrefs ref' (List.mem_cons_of_mem _ href'))
    refine ⟨accounts, hrest.trans ?_⟩
    rw [Heap.accountEvents_collected ha]
    simp only [drain, List.map_append, SqlState.mapSession, addOutbox_addOutbox]

/-- The transactions that were seen are drained in order. -/
theorem run_storeTransactionEvents (refs : List TransactionRef) (p : Process SqlState)
    (hrefs : ∀ ref ∈ refs, ref < p.heap.transactions.length) :
    ∃ transactions, (storeTransactionEvents refs).run.run p = .ret (.ok (),
      ⟨⟨p.heap.accounts, transactions⟩, p.adapters.mapSession
        (·.addOutbox ((drain p.heap.transactionEvents refs).map OutboxMessage.ofEvent))⟩) := by
  induction refs generalizing p with
  | nil =>
    refine ⟨p.heap.transactions, ?_⟩
    simp only [drain, List.map_nil, addOutbox_nil]
    rfl
  | cons ref refs ih =>
    have href := hrefs ref List.mem_cons_self
    have htx : p.heap.transactions[ref]? = some p.heap.transactions[ref] :=
      List.getElem?_eq_getElem href
    have hcall : (callTransaction ref Transaction.collect : SqlTask _).run.run p =
        .ret (.ok (p.heap.transactionEvents ref), { p with heap := { p.heap with
          transactions :=
            p.heap.transactions.set ref (p.heap.transactions[ref]).collectEvents.2 } }) := by
      show Program.ret _ = _
      simp only [Heap.callTransaction, Heap.transactionEvents, htx]
      rfl
    rw [storeTransactionEvents, Task.run_bind, hcall, Program.ret_bind]
    simp only
    rw [Task.run_bind, run_storeEvents, Program.ret_bind]
    simp only
    obtain ⟨transactions, hrest⟩ := ih ⟨{ p.heap with
        transactions := p.heap.transactions.set ref (p.heap.transactions[ref]).collectEvents.2 },
        p.adapters.mapSession
          (·.addOutbox ((p.heap.transactionEvents ref).map OutboxMessage.ofEvent))⟩
      (by
        intro ref' href'
        simpa using hrefs ref' (List.mem_cons_of_mem _ href'))
    refine ⟨transactions, hrest.trans ?_⟩
    rw [Heap.transactionEvents_collected htx]
    simp only [drain, List.map_append, SqlState.mapSession, addOutbox_addOutbox]

/-- The rows that a commit adds: one for every pending event of an object that was seen. -/
def newRows (p : Process SqlState) : List OutboxMessage :=
  (drain p.heap.accountEvents p.adapters.seenAccounts ++
    drain p.heap.transactionEvents p.adapters.seenTransactions).map OutboxMessage.ofEvent

theorem run_collectAndStoreEvents (p : Process SqlState)
    (haccounts : ∀ ref ∈ p.adapters.seenAccounts, ref < p.heap.accounts.length)
    (htransactions : ∀ ref ∈ p.adapters.seenTransactions, ref < p.heap.transactions.length) :
    ∃ heap, collectAndStoreEvents.run.run p =
      .ret (.ok (), ⟨heap, p.adapters.mapSession (·.addOutbox (newRows p))⟩) := by
  obtain ⟨accounts, hfirst⟩ := run_storeAccountEvents p.adapters.seenAccounts p haccounts
  obtain ⟨transactions, hsecond⟩ := run_storeTransactionEvents p.adapters.seenTransactions
    ⟨⟨accounts, p.heap.transactions⟩, p.adapters.mapSession (·.addOutbox
      ((drain p.heap.accountEvents p.adapters.seenAccounts).map OutboxMessage.ofEvent))⟩
    htransactions
  refine ⟨⟨accounts, transactions⟩, ?_⟩
  have hget : (getAdapters : SqlTask _).run.run p = .ret (.ok p.adapters, p) := rfl
  rw [collectAndStoreEvents, Task.run_bind, hget, Program.ret_bind]
  simp only
  rw [Task.run_bind, hfirst, Program.ret_bind]
  simp only
  rw [hsecond]
  simp only [SqlState.mapSession, addOutbox_addOutbox, newRows, List.map_append]
  rfl

/-- The first operation of a commit hands the pending objects and the new rows to the
database. -/
theorem first_commit (p : Process SqlState)
    (haccounts : ∀ ref ∈ p.adapters.seenAccounts, ref < p.heap.accounts.length)
    (htransactions : ∀ ref ∈ p.adapters.seenTransactions, ref < p.heap.transactions.length) :
    (commit.run.run p).first = some (.commit (p.adapters.session.addOutbox (newRows p))) := by
  obtain ⟨heap, hcollect⟩ := run_collectAndStoreEvents p haccounts htransactions
  rw [commit, Task.run_tryCatch, Task.run_bind, hcollect, Program.ret_bind]
  rfl

end SQLAlchemyUnitOfWork

/-! ## Attribution -/

/-- A reference to an aggregate of either kind. -/
abbrev AggregateRef := AccountRef ⊕ TransactionRef

def Heap.root (h : Heap) : AggregateRef → Option AggregateRoot
  | .inl ref => h.accounts[ref]?.map (·.toAggregateRoot)
  | .inr ref => h.transactions[ref]?.map (·.toAggregateRoot)

/-- `[*accounts.seen, *transactions.seen]` -/
def SqlState.seen (s : SqlState) : List AggregateRef :=
  s.seenAccounts.map .inl ++ s.seenTransactions.map .inr

/-- The rows can be attributed to the aggregates that were seen: those filed under the id
of one are made from its pending events, and no row is filed under another id. -/
structure Attributable (h : Heap) (seen : List AggregateRef) (rows : List OutboxMessage) :
    Prop where
  stream : ∀ ref ∈ seen, ∀ root, h.root ref = some root →
    rows.filter (fun m => m.aggregateId = root.id.str) =
      root.domainEvents.map OutboxMessage.ofEvent
  known : ∀ m ∈ rows, ∃ ref ∈ seen, ∃ root, h.root ref = some root ∧ m.aggregateId = root.id.str

/-- Every pending event has the id of its aggregate, and aggregates that share an id have
no pending events. -/
def OwnEventIds (h : Heap) (seen : List AggregateRef) : Prop :=
  (∀ ref ∈ seen, ∀ root, h.root ref = some root → ∀ e ∈ root.domainEvents, e.eventId = root.id) ∧
    ∀ ref ∈ seen, ∀ ref' ∈ seen, ref' ≠ ref → ∀ root root', h.root ref = some root →
      h.root ref' = some root' → root'.id = root.id → root'.domainEvents = []

/-- The pending events of an aggregate, and none when there is no such object. -/
def Heap.pending (h : Heap) (ref : AggregateRef) : List DomainEvent :=
  ((h.root ref).map (·.domainEvents)).getD []

theorem Heap.pending_eq {h : Heap} {ref : AggregateRef} {root : AggregateRoot}
    (hroot : h.root ref = some root) : h.pending ref = root.domainEvents := by
  simp [pending, hroot]

/-- The aggregates that were seen, each once. -/
def SqlState.visited (s : SqlState) : List AggregateRef :=
  s.seenAccounts.eraseDups.map .inl ++ s.seenTransactions.eraseDups.map .inr

theorem SqlState.mem_visited (s : SqlState) (ref : AggregateRef) :
    ref ∈ s.visited ↔ ref ∈ s.seen := by
  simp [visited, seen, List.mem_eraseDups]

theorem SqlState.nodup_visited (s : SqlState) : s.visited.Nodup := by
  rw [visited, List.nodup_append]
  refine ⟨(nodup_eraseDups _).map Sum.inl_injective, (nodup_eraseDups _).map Sum.inr_injective, ?_⟩
  simp

theorem newRows_eq (p : Process SqlState) :
    SQLAlchemyUnitOfWork.newRows p =
      (p.adapters.visited.flatMap p.heap.pending).map OutboxMessage.ofEvent := by
  have haccounts : p.heap.accountEvents = fun ref => p.heap.pending (.inl ref) := by
    ext1 ref
    simp [Heap.accountEvents, Heap.pending, Heap.root, Function.comp_def]
  have htransactions : p.heap.transactionEvents = fun ref => p.heap.pending (.inr ref) := by
    ext1 ref
    simp [Heap.transactionEvents, Heap.pending, Heap.root, Function.comp_def]
  rw [SQLAlchemyUnitOfWork.newRows, drain_eq_flatMap, drain_eq_flatMap, haccounts, htransactions,
    SqlState.visited, List.flatMap_append, List.flatMap_map, List.flatMap_map]

theorem OutboxMessage.ofEvent_injective : Function.Injective OutboxMessage.ofEvent := by
  intro e e' h
  exact congrArg OutboxMessage.payload h

/-- The rows filed under an id are made from the events that have this id. -/
theorem filter_ofEvent (events : List DomainEvent) (id : UUID) :
    (events.map OutboxMessage.ofEvent).filter (fun m => m.aggregateId = id.str) =
      (events.filter fun e => e.eventId = id).map OutboxMessage.ofEvent := by
  rw [List.filter_map]
  congr 2
  ext1 e
  have hstr : e.eventId.str = id.str ↔ e.eventId = id := UUID.str_injective.eq_iff
  simp [OutboxMessage.ofEvent, hstr]

theorem ownEventIds_iff {h : Heap} {seen : List AggregateRef}
    (hseen : ∀ ref ∈ seen, (h.root ref).isSome) :
    OwnEventIds h seen ↔
      (∀ ref ∈ seen, ∀ e ∈ h.pending ref, some e.eventId = (h.root ref).map (·.id)) ∧
        ∀ ref ∈ seen, ∀ ref' ∈ seen, ref' ≠ ref →
          (h.root ref').map (·.id) = (h.root ref).map (·.id) → h.pending ref' = [] := by
  apply and_congr
  · apply forall₂_congr
    intro ref href
    obtain ⟨root, hroot⟩ := Option.isSome_iff_exists.mp (hseen ref href)
    simp [Heap.pending_eq hroot, hroot]
  · apply forall₂_congr
    intro ref href
    apply forall₂_congr
    intro ref' href'
    obtain ⟨root, hroot⟩ := Option.isSome_iff_exists.mp (hseen ref href)
    obtain ⟨root', hroot'⟩ := Option.isSome_iff_exists.mp (hseen ref' href')
    simp [Heap.pending_eq hroot', hroot, hroot']

theorem attributable_newRows {p : Process SqlState}
    (hseen : ∀ ref ∈ p.adapters.seen, (p.heap.root ref).isSome) :
    Attributable p.heap p.adapters.seen (SQLAlchemyUnitOfWork.newRows p) ↔
      OwnEventIds p.heap p.adapters.seen := by
  have hsorted := @filter_flatMap_iff _ _ _ _ p.heap.pending (fun e => some e.eventId)
    (fun ref => (p.heap.root ref).map (·.id)) _ p.adapters.nodup_visited
  have hstream : (∀ ref ∈ p.adapters.seen, ∀ root, p.heap.root ref = some root →
      (SQLAlchemyUnitOfWork.newRows p).filter (fun m => m.aggregateId = root.id.str) =
        root.domainEvents.map OutboxMessage.ofEvent) ↔ OwnEventIds p.heap p.adapters.seen := by
    simp only [SqlState.mem_visited] at hsorted
    rw [ownEventIds_iff hseen, ← hsorted]
    apply forall₂_congr
    intro ref href
    obtain ⟨root, hroot⟩ := Option.isSome_iff_exists.mp (hseen ref href)
    simp only [hroot, Option.some.injEq, forall_eq', newRows_eq, filter_ofEvent, Option.map_some,
      Heap.pending_eq hroot]
    exact (List.map_injective_iff.mpr OutboxMessage.ofEvent_injective).eq_iff
  constructor
  · intro h
    exact hstream.mp h.stream
  · intro h
    refine ⟨hstream.mpr h, ?_⟩
    intro m hm
    rw [newRows_eq] at hm
    obtain ⟨e, he, rfl⟩ := List.mem_map.mp hm
    obtain ⟨ref, href, he⟩ := List.mem_flatMap.mp he
    have href := (p.adapters.mem_visited ref).mp href
    obtain ⟨root, hroot⟩ := Option.isSome_iff_exists.mp (hseen ref href)
    rw [Heap.pending_eq hroot] at he
    exact ⟨ref, href, root, hroot, congrArg UUID.str (h.1 ref href root hroot e he)⟩

/-- A commit adds rows that can be attributed exactly when every pending event has the id
of its aggregate and no two objects with pending events are the same aggregate. -/
theorem outbox_attributable_iff (p : Process SqlState)
    (hseen : ∀ ref ∈ p.adapters.seen, (p.heap.root ref).isSome) :
    (∃ rows, (SQLAlchemyUnitOfWork.commit.run.run p).first =
        some (.commit (p.adapters.session.addOutbox rows)) ∧
      Attributable p.heap p.adapters.seen rows) ↔ OwnEventIds p.heap p.adapters.seen := by
  have haccounts : ∀ ref ∈ p.adapters.seenAccounts, ref < p.heap.accounts.length := by
    intro ref href
    simpa [Heap.root] using hseen (.inl ref) (by simp [SqlState.seen, href])
  have htransactions : ∀ ref ∈ p.adapters.seenTransactions, ref < p.heap.transactions.length := by
    intro ref href
    simpa [Heap.root] using hseen (.inr ref) (by simp [SqlState.seen, href])
  have hfirst := SQLAlchemyUnitOfWork.first_commit p haccounts htransactions
  rw [← attributable_newRows hseen, hfirst]
  constructor
  · rintro ⟨rows, hrows, hattributable⟩
    obtain rfl : SQLAlchemyUnitOfWork.newRows p = rows := by
      simpa [Flush.addOutbox] using hrows
    exact hattributable
  · intro hattributable
    exact ⟨_, rfl, hattributable⟩

namespace Sample

theorem isHundredths_thirty :
    (DecimalArithmetic.Decimal.finite false 3000 (-2)).IsHundredths := by decide

theorem isHundredths_hundred :
    (DecimalArithmetic.Decimal.finite false 10000 (-2)).IsHundredths := by decide

/-- A unit of work that has seen one account, and debited it. -/
def debited : Process SqlState :=
  ⟨⟨[(Account.debit ⟨.finite false 3000 (-2), .EUR, isHundredths_thirty⟩ 3 1 ⟨7, 1⟩).on
      (Account.reconstitute 1 9 "DE01" ⟨.finite false 10000 (-2), .EUR, isHundredths_hundred⟩ .active 0 0)
      |>.2], []⟩, ⟨.empty, [0], [], []⟩⟩

end Sample

theorem outbox_attributable_sample :
    (∃ rows, (SQLAlchemyUnitOfWork.commit.run.run Sample.debited).first =
        some (.commit (Sample.debited.adapters.session.addOutbox rows)) ∧
      Attributable Sample.debited.heap Sample.debited.adapters.seen rows) ↔
    OwnEventIds Sample.debited.heap Sample.debited.adapters.seen :=
  outbox_attributable_iff Sample.debited (by decide)

/-- The debit of account 1 is filed under the id of its event. -/
theorem misfiled_debit :
    ¬ ∃ rows, (SQLAlchemyUnitOfWork.commit.run.run Sample.debited).first =
        some (.commit (Sample.debited.adapters.session.addOutbox rows)) ∧
      Attributable Sample.debited.heap Sample.debited.adapters.seen rows := by
  rintro ⟨rows, hrows, hattributable⟩
  rw [SQLAlchemyUnitOfWork.first_commit _ (by decide) (by decide)] at hrows
  obtain rfl : SQLAlchemyUnitOfWork.newRows Sample.debited = rows := by
    simpa [Flush.addOutbox] using hrows
  have hown := (attributable_newRows (by decide)).mp hattributable
  have hid := hown.1 (.inl 0) List.mem_cons_self _ rfl _ List.mem_cons_self
  revert hid
  decide

end BankingTransactions
