import BankingTransactions.InMemoryExecution
import BankingTransactions.Server

/-!
# Requests over the in-memory adapters

What a request makes of the stored aggregates. A transfer that reaches its domain calls
leaves its settlement in the store whether it has raised or not.
-/
namespace BankingTransactions
open DecimalArithmetic InteractionPrograms

namespace MemoryStore

/-- The references of the store lead to the objects that they should, and no key is held. -/
structure Consistent (s : MemoryStore) : Prop where
  accounts : ∀ {id ref}, s.adapters.accounts id = some ref →
    ∃ a, s.heap.accounts[ref]? = some a ∧ a.id = id
  transactions : ∀ {id ref}, s.adapters.transactions id = some ref →
    ∃ tx, s.heap.transactions[ref]? = some tx ∧ tx.id = id
  keys : ∀ {key id}, s.adapters.byIdempotency key = some id →
    ∃ tx, s.findTransaction id = some tx ∧ tx.idempotencyKey = key
  held : s.adapters.held = []

/-- Nothing that is stored changes. -/
structure Same (s s' : MemoryStore) : Prop where
  consistent : s'.Consistent
  accounts : ∀ id, s'.findAccount id = s.findAccount id
  transactions : ∀ id, s'.findTransaction id = s.findTransaction id
  keys : ∀ key, s'.findByKey key = s.findByKey key
  published : s'.adapters.published = s.adapters.published

end MemoryStore

namespace Settlement

variable (S : Settlement)

/-- The sender in the store: its events are taken only when the transfer succeeds. -/
def storedSender : Account := if S.raised = none then S.sender.collectEvents.2 else S.sender

def storedReceiver : Account := if S.raised = none then S.receiver.collectEvents.2 else S.receiver

def storedTx : Transaction := if S.raised = none then S.tx.collectEvents.2 else S.tx

@[simp] theorem storedSender_id : S.storedSender.id = S.sender.id := by
  unfold storedSender
  split <;> rfl

@[simp] theorem storedReceiver_id : S.storedReceiver.id = S.receiver.id := by
  unfold storedReceiver
  split <;> rfl

@[simp] theorem storedTx_id : S.storedTx.id = S.tx.id := by
  unfold storedTx
  split <;> rfl

@[simp] theorem storedTx_idempotencyKey : S.storedTx.idempotencyKey = S.tx.idempotencyKey := by
  unfold storedTx
  split <;> rfl

/-- What is handed to the bus. -/
def publishes : List DomainEvent :=
  if S.raised = none then S.sender.domainEvents ++ S.receiver.domainEvents ++ S.tx.domainEvents
  else []

end Settlement

/-- An account is stored. -/
structure MemoryStore.Opens (a : Account) (s s' : MemoryStore) : Prop where
  consistent : s'.Consistent
  accounts : ∀ id, s'.findAccount id = if id = a.id then some a else s.findAccount id
  transactions : ∀ id, s'.findTransaction id = s.findTransaction id
  keys : ∀ key, s'.findByKey key = s.findByKey key
  published : s'.adapters.published = s.adapters.published

/-- A settlement is stored. -/
structure MemoryStore.Settles (command : TransferCommand) (S : Settlement)
    (s s' : MemoryStore) : Prop where
  consistent : s'.Consistent
  accounts : ∀ id, s'.findAccount id =
    if id = command.fromAccountId then some S.storedSender
    else if id = command.toAccountId then some S.storedReceiver
    else s.findAccount id
  transactions : ∀ id, s'.findTransaction id =
    if id = S.tx.id then some S.storedTx else s.findTransaction id
  keys : ∀ key, s'.findByKey key =
    if key = command.idempotencyKey then some S.storedTx else s.findByKey key
  published : s'.adapters.published = s.adapters.published ++ S.publishes

namespace TransferCommand

/-- The settlement of a transfer of `amount` between stored accounts, or how it ends before. -/
def settlement (command : TransferCommand) (draws : TransferDraws) (amount : Money)
    (find : AccountId → Option Account) : Except Exn Settlement :=
  match find command.fromAccountId with
  | none => .error (.resourceNotFound "Account" command.fromAccountId)
  | some sender =>
    match find command.toAccountId with
    | none => .error (.resourceNotFound "Account" command.toAccountId)
    | some receiver =>
      match Transaction.initiate draws.tx command.fromAccountId command.toAccountId amount
          command.idempotencyKey with
      | .error e => .error e
      | .ok tx => .ok (draws.settle amount sender receiver tx)

theorem settlement_eq_ok {command : TransferCommand} {draws : TransferDraws} {amount : Money}
    {find : AccountId → Option Account} {S : Settlement}
    (h : command.settlement draws amount find = .ok S) :
    ∃ sender receiver tx, find command.fromAccountId = some sender ∧
      find command.toAccountId = some receiver ∧
      Transaction.initiate draws.tx command.fromAccountId command.toAccountId amount
        command.idempotencyKey = .ok tx ∧ S = draws.settle amount sender receiver tx := by
  unfold settlement at h
  split at h
  · cases h
  · split at h
    · cases h
    · split at h
      · cases h
      · exact ⟨_, _, _, ‹_›, ‹_›, ‹_›, (Except.ok.inj h).symm⟩

theorem settlement_tx {command : TransferCommand} {draws : TransferDraws} {amount : Money}
    {find : AccountId → Option Account} {S : Settlement}
    (h : command.settlement draws amount find = .ok S) :
    S.tx.id = draws.tx.id ∧ S.tx.idempotencyKey = command.idempotencyKey := by
  obtain ⟨sender, receiver, tx, -, -, htx, rfl⟩ := settlement_eq_ok h
  obtain ⟨-, -, htx⟩ := Transaction.initiate_ok htx
  have hpending : tx.status = .pending := by
    rw [htx]
    rfl
  obtain ⟨hid, -, hkey⟩ := draws.settle_tx_same amount sender receiver hpending
  rw [hid, hkey, htx]
  exact ⟨rfl, rfl⟩

/-- How a transfer over the in-memory adapters ends, and the settlement that it stores. -/
def inMemory (command : TransferCommand) (draws : TransferDraws) (s : MemoryStore) :
    Except Exn Response × Option Settlement :=
  match s.findByKey command.idempotencyKey with
  | some tx => (.ok (.transaction (.fromAggregate tx)), none)
  | none =>
    match command.money with
    | .error e => (.error e, none)
    | .ok amount =>
      -- the second key of a transfer to itself is the one that it holds already
      if command.fromAccountId = command.toAccountId then
        (.error (.concurrencyConflict command.fromAccountId.str), none)
      else
        match command.settlement draws amount s.findAccount with
        | .error e => (.error e, none)
        | .ok S =>
          match S.raised with
          | none => (.ok (.transaction (.fromAggregate S.tx)), some S)
          | some e => (.error e, some S)

end TransferCommand

namespace MemoryStore

variable {s s' : MemoryStore}

theorem findAccount_eq_some {id : AccountId} {a : Account} :
    s.findAccount id = some a ↔
      ∃ ref, s.adapters.accounts id = some ref ∧ s.heap.accounts[ref]? = some a :=
  Option.bind_eq_some_iff

/-- The store reads these parts of the state only. -/
theorem Consistent.same (hs : s.Consistent) (hheap : s'.heap = s.heap)
    (haccounts : s'.adapters.accounts = s.adapters.accounts)
    (htransactions : s'.adapters.transactions = s.adapters.transactions)
    (hkeys : s'.adapters.byIdempotency = s.adapters.byIdempotency)
    (hheld : s'.adapters.held = []) (hpublished : s'.adapters.published = s.adapters.published) :
    s.Same s' := by
  have hfind : ∀ id, s'.findTransaction id = s.findTransaction id := by
    intro id
    simp only [findTransaction, htransactions, hheap]
  refine ⟨⟨?_, ?_, ?_, hheld⟩, fun id => ?_, hfind, fun key => ?_, hpublished⟩
  · rw [haccounts, hheap]
    exact hs.accounts
  · rw [htransactions, hheap]
    exact hs.transactions
  · rw [hkeys]
    intro key id hid
    rw [hfind]
    exact hs.keys hid
  · simp only [findAccount, haccounts, hheap]
  · simp only [findByKey, hkeys]
    congr 1
    funext id
    exact hfind id

/-- Two identifiers never share a reference. -/
theorem Consistent.ref_ne (hs : s.Consistent) {id id' : AccountId} {i j : AccountRef}
    (hi : s.adapters.accounts id = some i) (hj : s.adapters.accounts id' = some j)
    (hne : id ≠ id') : i ≠ j := by
  intro hij
  subst hij
  obtain ⟨a, ha, rfl⟩ := hs.accounts hi
  obtain ⟨b, hb, rfl⟩ := hs.accounts hj
  rw [ha] at hb
  exact hne (congrArg (·.id) (Option.some.inj hb))

theorem Consistent.findAccount_id (hs : s.Consistent) {id : AccountId} {a : Account}
    (h : s.findAccount id = some a) : a.id = id := by
  obtain ⟨ref, href, ha⟩ := findAccount_eq_some.mp h
  obtain ⟨b, hb, hid⟩ := hs.accounts href
  rw [ha] at hb
  rw [Option.some.inj hb]
  exact hid

theorem Consistent.settlement_ids (hs : s.Consistent) {command : TransferCommand}
    {draws : TransferDraws} {amount : Money} {S : Settlement}
    (h : command.settlement draws amount s.findAccount = .ok S) :
    S.sender.id = command.fromAccountId ∧ S.receiver.id = command.toAccountId := by
  obtain ⟨sender, receiver, tx, hfrom, hto, -, rfl⟩ := TransferCommand.settlement_eq_ok h
  obtain ⟨hsender, hreceiver⟩ := draws.settle_id amount sender receiver tx
  rw [hsender, hreceiver]
  exact ⟨hs.findAccount_id hfrom, hs.findAccount_id hto⟩

/-- A new transaction does not have the id of one that a key leads to. -/
theorem Consistent.key_ne (hs : s.Consistent) {key : String} {id id' : UUID}
    (hkey : s.adapters.byIdempotency key = some id) (hnew : s.adapters.transactions id' = none) :
    id ≠ id' := by
  intro heq
  obtain ⟨tx, hfind, -⟩ := hs.keys hkey
  rw [heq, findTransaction, hnew] at hfind
  cases hfind

/-- A transaction that is stored last is found by its id, the others as before. -/
theorem Consistent.findTransaction_added (hs : s.Consistent) {tx : Transaction} {newId : UUID}
    (hheap : s'.heap.transactions = s.heap.transactions ++ [tx])
    (htransactions : s'.adapters.transactions =
      Function.update s.adapters.transactions newId (some s.heap.transactions.length)) (id : UUID) :
    s'.findTransaction id = if id = newId then some tx else s.findTransaction id := by
  simp only [findTransaction, htransactions, hheap]
  split_ifs with hid
  · rw [hid, Function.update_self]
    simp
  · rw [Function.update_of_ne hid]
    cases href : s.adapters.transactions id with
    | none => rfl
    | some ref =>
      obtain ⟨tx, htx, -⟩ := hs.transactions href
      simp only [Option.bind_some]
      exact List.getElem?_append_left (List.getElem?_eq_some_iff.mp htx).1

theorem Consistent.settles (hs : s.Consistent) {command : TransferCommand} {S : Settlement}
    {i j : AccountRef} (hfrom : s.adapters.accounts command.fromAccountId = some i)
    (hto : s.adapters.accounts command.toAccountId = some j)
    (hne : command.fromAccountId ≠ command.toAccountId)
    (hnew : s.adapters.transactions S.tx.id = none)
    (hkey : S.tx.idempotencyKey = command.idempotencyKey)
    (hsender : S.sender.id = command.fromAccountId)
    (hreceiver : S.receiver.id = command.toAccountId)
    (hheap : s'.heap = ⟨(s.heap.accounts.set i S.storedSender).set j S.storedReceiver,
      s.heap.transactions ++ [S.storedTx]⟩)
    (haccounts : s'.adapters.accounts = s.adapters.accounts)
    (htransactions : s'.adapters.transactions =
      Function.update s.adapters.transactions S.tx.id (some s.heap.transactions.length))
    (hkeys : s'.adapters.byIdempotency =
      Function.update s.adapters.byIdempotency command.idempotencyKey (some S.tx.id))
    (hheld : s'.adapters.held = [])
    (hpublished : s'.adapters.published = s.adapters.published ++ S.publishes) :
    s.Settles command S s' := by
  have hij := hs.ref_ne hfrom hto hne
  obtain ⟨a, ha, -⟩ := hs.accounts hfrom
  obtain ⟨b, hb, -⟩ := hs.accounts hto
  have hi : (s'.heap.accounts)[i]? = some S.storedSender := by
    rw [hheap, List.getElem?_set_ne hij.symm,
      List.getElem?_set_self (List.getElem?_eq_some_iff.mp ha).1]
  have hj : (s'.heap.accounts)[j]? = some S.storedReceiver := by
    have hlt : j < (s.heap.accounts.set i S.storedSender).length := by
      rw [List.length_set]
      exact (List.getElem?_eq_some_iff.mp hb).1
    rw [hheap, List.getElem?_set_self hlt]
  have hother : ∀ {id ref}, s.adapters.accounts id = some ref → id ≠ command.fromAccountId →
      id ≠ command.toAccountId → s'.heap.accounts[ref]? = s.heap.accounts[ref]? := by
    intro id ref href hfrom' hto'
    rw [hheap, List.getElem?_set_ne (hs.ref_ne hto href (Ne.symm hto')),
      List.getElem?_set_ne (hs.ref_ne hfrom href (Ne.symm hfrom'))]
  have hnewHeap : s'.heap.transactions = s.heap.transactions ++ [S.storedTx] := by rw [hheap]
  have htx := hs.findTransaction_added hnewHeap htransactions
  refine ⟨⟨fun {id ref} href => ?_, fun {id ref} href => ?_, fun {key id} hid => ?_, hheld⟩,
    fun id => ?_, htx, fun key => ?_, hpublished⟩
  · rw [haccounts] at href
    by_cases hid : id = command.fromAccountId
    · subst hid
      obtain rfl := Option.some.inj (hfrom.symm.trans href)
      exact ⟨_, hi, by simp [hsender]⟩
    by_cases hid' : id = command.toAccountId
    · subst hid'
      obtain rfl := Option.some.inj (hto.symm.trans href)
      exact ⟨_, hj, by simp [hreceiver]⟩
    rw [hother href hid hid']
    exact hs.accounts href
  · rw [htransactions] at href
    by_cases hid : id = S.tx.id
    · subst hid
      rw [Function.update_self] at href
      obtain rfl := Option.some.inj href
      exact ⟨S.storedTx, by simp [hheap], by simp⟩
    · rw [Function.update_of_ne hid] at href
      obtain ⟨tx, htx, hid⟩ := hs.transactions href
      refine ⟨tx, ?_, hid⟩
      rw [hheap]
      exact (List.getElem?_append_left (List.getElem?_eq_some_iff.mp htx).1).trans htx
  · rw [hkeys] at hid
    by_cases hk : key = command.idempotencyKey
    · subst hk
      rw [Function.update_self] at hid
      obtain rfl := Option.some.inj hid
      exact ⟨S.storedTx, by simp [htx], by simp [hkey]⟩
    · rw [Function.update_of_ne hk] at hid
      obtain ⟨tx, hfind, hkey'⟩ := hs.keys hid
      exact ⟨tx, by rw [htx, if_neg (hs.key_ne hid hnew), hfind], hkey'⟩
  · simp only [findAccount, haccounts]
    split_ifs with hid hid'
    · rw [hid, hfrom]
      exact hi
    · rw [hid', hto]
      exact hj
    · cases href : s.adapters.accounts id with
      | none => rfl
      | some ref => exact hother href hid hid'
  · simp only [findByKey, hkeys]
    split_ifs with hk
    · rw [hk, Function.update_self, Option.bind_some, htx, if_pos rfl]
    · rw [Function.update_of_ne hk]
      cases hid : s.adapters.byIdempotency key with
      | none => rfl
      | some id =>
        rw [Option.bind_some, Option.bind_some, htx, if_neg (hs.key_ne hid hnew)]

theorem Consistent.opens (hs : s.Consistent) {a : Account}
    (hheap : s'.heap = ⟨s.heap.accounts ++ [a], s.heap.transactions⟩)
    (haccounts : s'.adapters.accounts =
      Function.update s.adapters.accounts a.id (some s.heap.accounts.length))
    (htransactions : s'.adapters.transactions = s.adapters.transactions)
    (hkeys : s'.adapters.byIdempotency = s.adapters.byIdempotency)
    (hheld : s'.adapters.held = []) (hpublished : s'.adapters.published = s.adapters.published) :
    s.Opens a s' := by
  have hfind : ∀ id, s'.findTransaction id = s.findTransaction id := by
    intro id
    simp only [findTransaction, htransactions, hheap]
  have hkept {id ref} (href : s.adapters.accounts id = some ref) :
      s'.heap.accounts[ref]? = s.heap.accounts[ref]? := by
    obtain ⟨b, hb, -⟩ := hs.accounts href
    rw [hheap]
    exact List.getElem?_append_left (List.getElem?_eq_some_iff.mp hb).1
  refine ⟨⟨fun {id ref} href => ?_, ?_, ?_, hheld⟩, fun id => ?_, hfind, fun key => ?_, hpublished⟩
  · rw [haccounts] at href
    by_cases hid : id = a.id
    · subst hid
      rw [Function.update_self] at href
      obtain rfl := Option.some.inj href
      exact ⟨a, by simp [hheap], rfl⟩
    · rw [Function.update_of_ne hid] at href
      rw [hkept href]
      exact hs.accounts href
  · rw [htransactions, hheap]
    exact hs.transactions
  · rw [hkeys]
    intro key id hid
    rw [hfind]
    exact hs.keys hid
  · simp only [findAccount, haccounts]
    split_ifs with hid
    · rw [hid, Function.update_self, hheap]
      simp
    · rw [Function.update_of_ne hid]
      cases href : s.adapters.accounts id with
      | none => rfl
      | some ref => exact hkept href
  · simp only [findByKey, hkeys]
    congr 1
    ext1 id
    exact hfind id

theorem Consistent.key_unused (hs : s.Consistent) {key : String} (h : s.findByKey key = none) :
    s.adapters.byIdempotency key = none := by
  cases hid : s.adapters.byIdempotency key with
  | none => rfl
  | some id =>
    obtain ⟨tx, htx, -⟩ := hs.keys hid
    rw [findByKey, hid, Option.bind_some, htx] at h
    cases h

theorem Consistent.findAccount_eq_none (hs : s.Consistent) {id : AccountId}
    (h : s.findAccount id = none) : s.adapters.accounts id = none := by
  cases href : s.adapters.accounts id with
  | none => rfl
  | some ref =>
    obtain ⟨a, ha, -⟩ := hs.accounts href
    rw [findAccount, href, Option.bind_some, ha] at h
    cases h

end MemoryStore

/-! ## Transfers -/

namespace TransferService

variable {s : MemoryStore} {draws : TransferDraws} {command : TransferCommand} {amount : Money}

/-- Steps 4 to 9 when an account is missing, or the transaction is not allowed. -/
theorem eval_transferUnit_refused (hs : s.Consistent) {m : MemoryState}
    (hm : m.accounts = s.adapters.accounts) {e : Exn}
    (h : command.settlement draws amount s.findAccount = .error e) :
    ∃ seen, (transferUnit memoryUow draws command.fromAccountId command.toAccountId amount
      command.idempotencyKey).eval ⟨s.heap, m⟩ = (.error e, ⟨s.heap, { m with seen := seen }⟩) := by
  obtain ⟨⟨accounts, transactions⟩, adapters⟩ := s
  simp only [TransferCommand.settlement] at h
  cases hfrom : MemoryStore.findAccount ⟨⟨accounts, transactions⟩, adapters⟩
      command.fromAccountId with
  | none =>
    rw [hfrom] at h
    have hfrom : m.accounts _ = none := hm ▸ hs.findAccount_eq_none hfrom
    refine ⟨m.seen, ?_⟩
    simp only [transferUnit, Task.eval_bind, eval_getWithLock, hfrom, Task.eval_throw]
    simpa using h
  | some sender =>
    obtain ⟨i, hi, -⟩ := MemoryStore.findAccount_eq_some.mp hfrom
    have hi : m.accounts _ = some i := hm ▸ hi
    cases hto : MemoryStore.findAccount ⟨⟨accounts, transactions⟩, adapters⟩
        command.toAccountId with
    | none =>
      rw [hfrom, hto] at h
      have hto : m.accounts _ = none := hm ▸ hs.findAccount_eq_none hto
      refine ⟨m.seen ++ [i], ?_⟩
      simp only [transferUnit, Task.eval_bind, eval_getWithLock, hi, hto, Task.eval_throw]
      simpa using h
    | some receiver =>
      obtain ⟨j, hj, -⟩ := MemoryStore.findAccount_eq_some.mp hto
      have hj : m.accounts _ = some j := hm ▸ hj
      rw [hfrom, hto] at h
      refine ⟨m.seen ++ [i] ++ [j], ?_⟩
      cases htx : Transaction.initiate draws.tx command.fromAccountId command.toAccountId amount
          command.idempotencyKey with
      | ok tx => simp [htx] at h
      | error e' =>
        simp only [transferUnit, Task.eval_bind, eval_getWithLock, hi, hj, Task.eval_ofExcept,
          htx]
        simpa [htx] using h

/-- Steps 4 to 9 when the domain calls are reached. -/
theorem eval_transferUnit_settled (hs : s.Consistent) {m : MemoryState}
    (hm : m.accounts = s.adapters.accounts)
    (hne : command.fromAccountId ≠ command.toAccountId) {S : Settlement}
    (h : command.settlement draws amount s.findAccount = .ok S) :
    ∃ i j, s.adapters.accounts command.fromAccountId = some i ∧
      s.adapters.accounts command.toAccountId = some j ∧
      (transferUnit memoryUow draws command.fromAccountId command.toAccountId amount
        command.idempotencyKey).eval ⟨s.heap, m⟩ =
        (match S.raised with
          | none => .ok (i, j, s.heap.transactions.length)
          | some e => .error e,
          ⟨⟨(s.heap.accounts.set i S.sender).set j S.receiver, s.heap.transactions ++ [S.tx]⟩,
            { m.saved s.heap.transactions.length S.tx with
              seen := m.seen ++ [i] ++ [j], committed := true }⟩) := by
  obtain ⟨⟨accounts, transactions⟩, adapters⟩ := s
  obtain ⟨sender, receiver, tx, hfrom, hto, htx, rfl⟩ := TransferCommand.settlement_eq_ok h
  obtain ⟨i, hi, hsender⟩ := MemoryStore.findAccount_eq_some.mp hfrom
  obtain ⟨j, hj, hreceiver⟩ := MemoryStore.findAccount_eq_some.mp hto
  refine ⟨i, j, hi, hj, ?_⟩
  rw [eval_transferUnit draws (hm ▸ hi) (hm ▸ hj) hsender hreceiver (hs.ref_ne hi hj hne) htx]
  simp only
  cases (draws.settle amount sender receiver tx).raised <;> rfl

/-- Steps 3 to 9 between two accounts: both keys are given back. -/
theorem eval_locked (draws : TransferDraws) (amount : Money) (heap : Heap) {m : MemoryState}
    (hm : m.held = [])
    (hne : command.fromAccountId ≠ command.toAccountId) :
    ∃ x y, (withLock memoryLock (lockKeys command.fromAccountId command.toAccountId)
      (withUow memoryUow (transferUnit memoryUow draws command.fromAccountId command.toAccountId
        amount command.idempotencyKey))).eval ⟨heap, m⟩ =
      let unit := (transferUnit memoryUow draws command.fromAccountId command.toAccountId amount
        command.idempotencyKey).eval
        ⟨heap, { m with held := [y, x], acquired := [x, y], committed := false }⟩
      (unit.1, ⟨unit.2.heap, { unit.2.adapters with
        held := unit.2.adapters.held.filter fun key => key ∉ unit.2.adapters.acquired }⟩) := by
  obtain ⟨x, y, hxy, hkeys⟩ := lockKeys_of_ne hne
  refine ⟨x, y, ?_⟩
  rw [hkeys, eval_withLock hxy hm, eval_withUow]

end TransferService

namespace MemoryStore

/-- How a transfer ends over a store. -/
structure Ends (s : MemoryStore) (command : TransferCommand)
    (run : Except Exn Response × Option Settlement) (outcome : Except Exn Response)
    (s' : MemoryStore) : Prop where
  outcome : outcome = run.1
  store : match run.2 with
    | none => s.Same s'
    | some S => s.Settles command S s'

variable {s : MemoryStore}

/-- Steps 3 to 10 between two accounts. -/
theorem ends_locked (hs : s.Consistent) {draws : TransferDraws}
    (hnew : s.adapters.transactions draws.tx.id = none) {command : TransferCommand}
    {amount : Money} (hne : command.fromAccountId ≠ command.toAccountId)
    (hin : command.inMemory draws s = match command.settlement draws amount s.findAccount with
      | .error e => (.error e, none)
      | .ok S => match S.raised with
        | none => (.ok (.transaction (.fromAggregate S.tx)), some S)
        | some e => (.error e, some S)) :
    let run := (withLock memoryLock
        (TransferService.lockKeys command.fromAccountId command.toAccountId)
        (withUow memoryUow (TransferService.transferUnit memoryUow draws command.fromAccountId
          command.toAccountId amount command.idempotencyKey)) >>= fun (i, j, k) =>
      TransferService.publishRemaining memoryBus i j k).eval
        ⟨s.heap, { s.adapters with committed := false }⟩
    s.Ends command (command.inMemory draws s) (run.1.map .transaction) run.2 := by
  intro run
  have hrun : run = _ := Task.eval_bind _ _ _
  obtain ⟨x, y, hlocked⟩ := TransferService.eval_locked draws amount s.heap
    (m := { s.adapters with committed := false }) hs.held hne
  rw [hlocked] at hrun
  rw [hin]
  cases hsettlement : command.settlement draws amount s.findAccount with
  | error e =>
    obtain ⟨seen, hunit⟩ := TransferService.eval_transferUnit_refused hs
      (m := { s.adapters with held := [y, x], acquired := [x, y], committed := false }) rfl
      hsettlement
    simp only [hunit] at hrun
    rw [hrun]
    exact ⟨rfl, hs.same rfl rfl rfl rfl (by simp) rfl⟩
  | ok S =>
    obtain ⟨i, j, hi, hj, hunit⟩ := TransferService.eval_transferUnit_settled hs
      (m := { s.adapters with held := [y, x], acquired := [x, y], committed := false }) rfl hne
      hsettlement
    simp only [hunit] at hrun
    obtain ⟨hid, hkey⟩ := TransferCommand.settlement_tx hsettlement
    obtain ⟨hsender, hreceiver⟩ := hs.settlement_ids hsettlement
    cases hraised : S.raised with
    | some e =>
      simp only [hraised] at hrun ⊢
      rw [hrun]
      refine ⟨rfl, ?_⟩
      refine hs.settles hi hj hne (hid ▸ hnew) hkey hsender hreceiver ?_ rfl rfl ?_ ?_ ?_
      · simp only [Settlement.storedSender, Settlement.storedReceiver, Settlement.storedTx, hraised,
          reduceCtorEq, if_false]
      · simp only [MemoryState.saved, hkey]
      · simp [MemoryState.saved]
      · simp [MemoryState.saved, Settlement.publishes, hraised]
    | none =>
      have hij := hs.ref_ne hi hj hne
      obtain ⟨a, ha, -⟩ := hs.accounts hi
      obtain ⟨b, hb, -⟩ := hs.accounts hj
      have hi' : ((s.heap.accounts.set i S.sender).set j S.receiver)[i]? = some S.sender := by
        rw [List.getElem?_set_ne hij.symm, List.getElem?_set_self (List.getElem?_eq_some_iff.mp ha).1]
      have hj' : ((s.heap.accounts.set i S.sender).set j S.receiver)[j]? = some S.receiver := by
        apply List.getElem?_set_self
        rw [List.length_set]
        exact (List.getElem?_eq_some_iff.mp hb).1
      have hk : (s.heap.transactions ++ [S.tx])[s.heap.transactions.length]? = some S.tx := by simp
      simp only [hraised] at hrun ⊢
      rw [eval_publishRemaining hi' hj' hij hk] at hrun
      rw [hrun]
      refine ⟨rfl, ?_⟩
      refine hs.settles hi hj hne (hid ▸ hnew) hkey hsender hreceiver ?_ rfl rfl ?_ ?_ ?_
      · simp only [Settlement.storedSender, Settlement.storedReceiver, Settlement.storedTx, hraised,
          if_true, List.set_comm S.receiver _ hij.symm, List.set_set]
        simp
      · simp only [MemoryState.saved, hkey]
      · simp [MemoryState.saved]
      · simp [MemoryState.saved, Settlement.publishes, hraised]

/-- A transfer over the in-memory adapters. -/
theorem ends_initiate (hs : s.Consistent) {draws : TransferDraws}
    (hnew : s.adapters.transactions draws.tx.id = none) (command : TransferCommand) :
    let run := (TransferService.initiate memoryUow memoryLock memoryBus draws command).eval s
    s.Ends command (command.inMemory draws s) (run.1.map .transaction) run.2 := by
  have hdone {m : MemoryState} (hm : m = { s.adapters with committed := false }) :
      s.Same ⟨s.heap, m⟩ := by
    subst hm
    exact hs.same rfl rfl rfl rfl hs.held rfl
  have hlookup := @eval_lookup s.heap s.adapters command.idempotencyKey
  rw [TransferService.initiate, Task.eval_bind, hlookup]
  cases hkey : s.findByKey command.idempotencyKey with
  | some tx =>
    have hin : command.inMemory draws s =
        (.ok (.transaction (.fromAggregate tx)), none) := by
      simp only [TransferCommand.inMemory, hkey]
    obtain ⟨id, hid, hfind⟩ := Option.bind_eq_some_iff.mp hkey
    obtain ⟨ref, href, htx⟩ := Option.bind_eq_some_iff.mp hfind
    have hstored : (s.adapters.byIdempotency command.idempotencyKey).bind s.adapters.transactions =
        some ref := by rw [hid, Option.bind_some, href]
    obtain ⟨⟨accounts, transactions⟩, adapters⟩ := s
    rw [hin]
    simp only [hstored, Task.eval_bind, eval_readTransaction htx, Task.eval_pure]
    exact ⟨rfl, hdone rfl⟩
  | none =>
    simp only [hs.key_unused hkey, Option.bind_none]
    rw [Task.eval_bind, Task.eval_ofExcept]
    cases hcurrency : Currency.ofValue command.currency with
    | error e =>
      have hin : command.inMemory draws s = (.error e, none) := by
        simp only [TransferCommand.inMemory, hkey, TransferCommand.money, hcurrency]
        rfl
      rw [hin]
      exact ⟨rfl, hdone rfl⟩
    | ok currency =>
      simp only
      rw [Task.eval_bind, Task.eval_ofExcept]
      cases hamount : Money.new command.amount currency with
      | error e =>
        have hmoney : command.money = .error e := by
          rw [TransferCommand.money, hcurrency]
          exact hamount
        have hin : command.inMemory draws s = (.error e, none) := by
          simp only [TransferCommand.inMemory, hkey, hmoney]
        rw [hin]
        exact ⟨rfl, hdone rfl⟩
      | ok amount =>
        have hmoney : command.money = .ok amount := bind_eq_ok.mpr ⟨currency, hcurrency, hamount⟩
        simp only
        by_cases hsame : command.fromAccountId = command.toAccountId
        · have hin : command.inMemory draws s =
              (.error (.concurrencyConflict command.fromAccountId.str), none) := by
            simp only [TransferCommand.inMemory, hkey, hmoney, if_pos hsame]
          rw [hin, ← hsame, TransferService.lockKeys_self, Task.eval_bind,
            eval_withLock_same (m := { s.adapters with committed := false }) hs.held]
          exact ⟨rfl, hs.same rfl rfl rfl rfl hs.held rfl⟩
        · have hin : command.inMemory draws s =
              match command.settlement draws amount s.findAccount with
              | .error e => (.error e, none)
              | .ok S => match S.raised with
                | none => (.ok (.transaction (.fromAggregate S.tx)), some S)
                | some e => (.error e, some S) := by
            simp only [TransferCommand.inMemory, hkey, hmoney, if_neg hsame]
          exact ends_locked hs hnew hsame hin

theorem perform_transfer (hs : s.Consistent) {draws : TransferDraws}
    (hnew : s.adapters.transactions draws.tx.id = none) (command : TransferCommand) :
    s.Ends command (command.inMemory draws s) (perform (.transfer draws command) s).1
      (perform (.transfer draws command) s).2 := by
  have h := ends_initiate hs hnew command
  have hrun : perform (.transfer draws command) s =
      (((TransferService.initiate memoryUow memoryLock memoryBus draws command).eval s).1.map
        .transaction,
        ((TransferService.initiate memoryUow memoryLock memoryBus draws command).eval s).2) := by
    simp only [perform, Request.memoryTask, Task.eval_bind]
    obtain ⟨res, s'⟩ :=
      (TransferService.initiate memoryUow memoryLock memoryBus draws command).eval s
    cases res <;> rfl
  rw [hrun]
  exact h

/-- The unit of work of an account opening. -/
theorem eval_openUnit {accounts : List Account} {transactions : List Transaction}
    {m : MemoryState} {ref : AccountRef} {a : Account} (ha : accounts[ref]? = some a) :
    (withUow memoryUow (do
      memoryUow.accounts.save ref
      memoryUow.commit)).eval ⟨⟨accounts, transactions⟩, m⟩ =
      (.ok (), ⟨⟨accounts, transactions⟩, { m with
        accounts := Function.update m.accounts a.id (some ref), committed := true }⟩) := by
  rw [eval_withUow]
  simp only [memoryUow, InMemoryAccountRepository.save, InMemoryUnitOfWork.commit, Task.eval_bind,
    eval_readAccount ha, eval_modifyAdapters]

theorem eval_newAccount {accounts : List Account} {transactions : List Transaction}
    {m : MemoryState} (a : Account) :
    (newAccount a : MemoryTask AccountRef).eval ⟨⟨accounts, transactions⟩, m⟩ =
      (.ok accounts.length, ⟨⟨accounts ++ [a], transactions⟩, m⟩) := rfl

/-- An account opening over the in-memory adapters. -/
theorem perform_create (hs : s.Consistent) (draws : AccountDraws)
    (command : CreateAccountCommand) :
    match command.opened draws with
    | .error e => perform (.create draws command) s = (.error e, s)
    | .ok a => (perform (.create draws command) s).1 = .ok (.account (.fromAggregate a)) ∧
        s.Opens a (perform (.create draws command) s).2 := by
  simp only [perform, Request.memoryTask, AccountService.create, Task.eval_bind,
    Task.eval_ofExcept]
  cases hcurrency : Currency.ofValue command.currency with
  | error e =>
    have hopened : command.opened draws = .error e := by
      rw [CreateAccountCommand.opened, hcurrency]
      rfl
    rw [hopened]
  | ok currency =>
    cases hbalance : Money.new command.initialBalance currency with
    | error e =>
      have hopened : command.opened draws = .error e := by
        rw [CreateAccountCommand.opened, hcurrency]
        change (Money.new command.initialBalance currency >>= _) = _
        rw [hbalance]
        rfl
      rw [hopened]
      simp only [hbalance]
    | ok balance =>
      have hopened : command.opened draws =
          Account.create draws command.ownerId currency (some balance) := by
        rw [CreateAccountCommand.opened, hcurrency]
        change (Money.new command.initialBalance currency >>= _) = _
        rw [hbalance]
        rfl
      rw [hopened]
      cases ha : Account.create draws command.ownerId currency (some balance) with
      | error e => simp only [hbalance, ha]
      | ok a =>
        obtain ⟨⟨accounts, transactions⟩, m⟩ := s
        have hread : (accounts ++ [a])[accounts.length]? = some a := by simp
        simp only [hbalance, ha, eval_newAccount, eval_openUnit hread, eval_readAccount hread,
          Task.eval_pure, true_and]
        exact hs.opens rfl rfl rfl rfl hs.held rfl

/-! ## The stores that a test can reach -/

/-- The test helper stores one account after the other. -/
theorem consistent_forM_add (accounts : List Account) (hs : s.Consistent) :
    Consistent ((accounts.forM InMemoryAccountRepository.add : MemoryTask Unit).eval s).2 := by
  induction accounts generalizing s with
  | nil => exact hs
  | cons a accounts ih =>
    change Consistent ((InMemoryAccountRepository.add a >>= fun _ =>
      accounts.forM InMemoryAccountRepository.add : MemoryTask Unit).eval s).2
    rw [Task.eval_bind]
    have hadded : s.Opens a ((InMemoryAccountRepository.add a).eval s).2 :=
      hs.opens rfl rfl rfl rfl hs.held rfl
    exact ih hadded.consistent

theorem seeded_consistent (accounts : List Account) : (seeded accounts).Consistent :=
  consistent_forM_add (s := ⟨.empty, .init⟩) accounts ⟨nofun, nofun, nofun, rfl⟩

/-- The identifier of a request is not in use. -/
def New (s : MemoryStore) : Request → Prop
  | .create draws _ => s.adapters.accounts draws.id = none
  | .transfer draws _ => s.adapters.transactions draws.tx.id = none

end MemoryStore

/-- The stores that requests can reach, one after the other, from accounts of any kind. -/
inductive MemoryReachable : MemoryStore → Prop
  | seeded (accounts : List Account) : MemoryReachable (.seeded accounts)
  | perform {s : MemoryStore} (h : MemoryReachable s) {r : Request} (hnew : s.New r) :
    MemoryReachable (s.perform r).2

theorem MemoryReachable.consistent {s : MemoryStore} (h : MemoryReachable s) : s.Consistent := by
  induction h with
  | seeded accounts => exact MemoryStore.seeded_consistent accounts
  | @perform s h r hnew hs =>
    cases r with
    | create draws command =>
      have h := MemoryStore.perform_create hs draws command
      split at h
      · rw [h]
        exact hs
      · exact h.2.consistent
    | transfer draws command =>
      have h := (MemoryStore.perform_transfer hs hnew command).store
      split at h
      · exact h.consistent
      · exact h.consistent

/-- The account 1 in EUR and the account 2 in `currency`, opened in memory. -/
def Sample.stored (currency : String) : MemoryStore :=
  (((MemoryStore.seeded []).perform (opening 1 (Fin.last 9) "EUR")).2.perform
    (opening 2 (Fin.last 9) currency)).2

theorem Sample.stored_reachable (currency : String) (hnew :
      ((MemoryStore.seeded []).perform (opening 1 (Fin.last 9) "EUR")).2.New
        (opening 2 (Fin.last 9) currency)) :
    MemoryReachable (stored currency) :=
  .perform (.perform (.seeded []) (r := opening 1 (Fin.last 9) "EUR") rfl) hnew

end BankingTransactions
