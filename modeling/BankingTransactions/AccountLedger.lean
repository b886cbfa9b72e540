import BankingTransactions.Aggregates

/-!
# The account as a ledger of its events

Sequences of calls of the five methods that change an `Account`, with the events
collected at arbitrary points. The first half says what one call can do, and from it
what no sequence can do. The second half replays events: `Ledger` is the account as
its events tell it, and an event that cannot follow stops the replay. Whatever can be
replayed is a proper history, and the replay of what an account has recorded, drained
or still pending, always ends in the account itself.
-/
namespace BankingTransactions
open DecimalArithmetic

namespace Account

/-! ## Calls -/

/-- A call of a method, with its arguments and what it draws. -/
inductive Call where
  | debit (amount : Money) (transactionId : UUID) (now : Time) (stamp : Stamp)
  | credit (amount : Money) (transactionId : UUID) (now : Time) (stamp : Stamp)
  | freeze (reason : String) (now : Time) (stamp : Stamp)
  | unfreeze (now : Time) (stamp : Stamp)
  | close (now : Time) (stamp : Stamp)
  deriving DecidableEq

def Call.method : Call → Method Account Unit
  | debit amount transactionId now stamp => Account.debit amount transactionId now stamp
  | credit amount transactionId now stamp => Account.credit amount transactionId now stamp
  | freeze reason now stamp => Account.freeze reason now stamp
  | unfreeze now stamp => Account.unfreeze now stamp
  | close now stamp => Account.close now stamp

/-- The account after a call, whether or not the call raises. -/
def called (a : Account) (call : Call) : Account := (call.method.on a).2

def after (a : Account) (calls : List Call) : Account := calls.foldl called a

@[simp] theorem after_nil (a : Account) : a.after [] = a := rfl

@[simp] theorem after_concat (a : Account) (calls : List Call) (call : Call) :
    a.after (calls ++ [call]) = (a.after calls).called call := by
  simp [after, List.foldl_append]

/-- `a` after a change of status. -/
def turned (a : Account) (status : AccountStatus) (now : Time) (e : DomainEvent) : Account :=
  { a with
    status := status
    toAggregateRoot := ({ a.toAggregateRoot with updatedAt := now }).recordEvent e }

theorem freeze_on (reason : String) (now : Time) (stamp : Stamp) (a : Account) :
    (freeze reason now stamp).on a =
      match a.status with
      | .closed => (.error (.accountClosed a.id), a)
      | .frozen => (.ok (), a)
      | .active =>
        (.ok (), a.turned .frozen now (stamp.event (.accountFrozen a.id a.ownerId reason))) := by
  cases h : a.status <;> simp [freeze, assertNotClosed, record, turned, h]

theorem unfreeze_on (now : Time) (stamp : Stamp) (a : Account) :
    (unfreeze now stamp).on a =
      match a.status with
      | .closed => (.error (.accountClosed a.id), a)
      | .frozen =>
        (.ok (), a.turned .active now (stamp.event (.accountUnfrozen a.id a.ownerId)))
      | .active => (.ok (), a) := by
  cases h : a.status <;> simp [unfreeze, assertNotClosed, record, turned, h]

theorem close_on (now : Time) (stamp : Stamp) (a : Account) :
    (close now stamp).on a =
      if a.status = .closed then (.error (.accountClosed a.id), a)
      else if a.balance.cents = 0 then
        (.ok (), a.turned .closed now (stamp.event (.accountClosed a.id a.ownerId)))
      else (.error (.accountNotEmpty a.id a.balance), a) := by
  split_ifs with hclosed hzero <;>
    simp [close, assertNotClosed, record, turned, Money.isZero, *]

/-- What a call can do: it raises or does nothing, and then changes nothing, or it is one
of five changes. -/
inductive Step (a : Account) : Call → Except Exn Unit → Account → Prop
  | raised (call : Call) (e : Exn) : Step a call (.error e) a
  | ignored (call : Call) : Step a call (.ok ()) a
  | debited (h : a.status = .active) (amount b : Money) (transactionId : UUID) (now : Time)
      (stamp : Stamp) (hcurrency : b.currency = a.balance.currency)
      (hcents : b.cents + amount.cents = a.balance.cents) :
      Step a (.debit amount transactionId now stamp) (.ok ()) (a.moved b now (stamp.event
        (.balanceDebited a.id transactionId amount.amount amount.currency.value b.amount)))
  | credited (h : a.status = .active) (amount b : Money) (transactionId : UUID) (now : Time)
      (stamp : Stamp) (hcurrency : b.currency = a.balance.currency)
      (hcents : b.cents = a.balance.cents + amount.cents) :
      Step a (.credit amount transactionId now stamp) (.ok ()) (a.moved b now (stamp.event
        (.balanceCredited a.id transactionId amount.amount amount.currency.value b.amount)))
  | froze (h : a.status = .active) (reason : String) (now : Time) (stamp : Stamp) :
      Step a (.freeze reason now stamp) (.ok ())
        (a.turned .frozen now (stamp.event (.accountFrozen a.id a.ownerId reason)))
  | unfroze (h : a.status = .frozen) (now : Time) (stamp : Stamp) :
      Step a (.unfreeze now stamp) (.ok ())
        (a.turned .active now (stamp.event (.accountUnfrozen a.id a.ownerId)))
  | closed (h : a.status ≠ .closed) (hzero : a.balance.cents = 0) (now : Time) (stamp : Stamp) :
      Step a (.close now stamp) (.ok ())
        (a.turned .closed now (stamp.event (.accountClosed a.id a.ownerId)))

theorem step_called (a : Account) (call : Call) :
    Step a call (call.method.on a).1 (a.called call) := by
  unfold called
  cases call with
  | debit amount transactionId now stamp =>
    simp only [Call.method]
    by_cases h : a.CanDebit amount
    · obtain ⟨b, hcurrency, hcents, hon⟩ := debit_of_canDebit h transactionId now stamp
      rw [hon]
      exact .debited h.1 amount b transactionId now stamp hcurrency hcents
    · obtain ⟨e, -, hon⟩ := debit_of_not_canDebit h transactionId now stamp
      rw [hon]
      exact .raised _ e
  | credit amount transactionId now stamp =>
    simp only [Call.method]
    by_cases h : a.CanCredit amount
    · obtain ⟨b, hcurrency, hcents, hon⟩ := credit_of_canCredit h transactionId now stamp
      rw [hon]
      exact .credited h.1 amount b transactionId now stamp hcurrency hcents
    · obtain ⟨e, -, hon⟩ := credit_of_not_canCredit h transactionId now stamp
      rw [hon]
      exact .raised _ e
  | freeze reason now stamp =>
    simp only [Call.method, freeze_on]
    cases h : a.status with
    | active => exact .froze h reason now stamp
    | frozen => exact .ignored _
    | closed => exact .raised _ _
  | unfreeze now stamp =>
    simp only [Call.method, unfreeze_on]
    cases h : a.status with
    | active => exact .ignored _
    | frozen => exact .unfroze h now stamp
    | closed => exact .raised _ _
  | close now stamp =>
    simp only [Call.method, close_on]
    split_ifs with hclosed hzero
    · exact .raised _ _
    · exact .closed hclosed hzero now stamp
    · exact .raised _ _

/-! ## What no sequence of calls can do -/

/-- The fields that identify an account. -/
def SameAccount (a a' : Account) : Prop :=
  a.id = a'.id ∧ a.ownerId = a'.ownerId ∧ a.accountNumber = a'.accountNumber ∧
    a.balance.currency = a'.balance.currency

namespace Step

variable {a a' : Account} {call : Call} {r : Except Exn Unit}

/-- A call that raises leaves the whole object as it was. -/
theorem eq_of_error {e : Exn} (h : Step a call (.error e) a') : a' = a := by
  cases h
  rfl

theorem sameAccount (h : Step a call r a') : a'.SameAccount a := by
  cases h with
  | debited _ _ _ _ _ _ hcurrency => exact ⟨rfl, rfl, rfl, hcurrency⟩
  | credited _ _ _ _ _ _ hcurrency => exact ⟨rfl, rfl, rfl, hcurrency⟩
  | _ => exact ⟨rfl, rfl, rfl, rfl⟩

/-- Only a debit or a credit of an active account changes the balance. -/
theorem balance_eq (h : Step a call r a') : a'.balance = a.balance ∨ a.status = .active ∧
    ((∃ amount transactionId now stamp, call = .debit amount transactionId now stamp) ∨
      ∃ amount transactionId now stamp, call = .credit amount transactionId now stamp) := by
  cases h with
  | debited h => exact .inr ⟨h, .inl ⟨_, _, _, _, rfl⟩⟩
  | credited h => exact .inr ⟨h, .inr ⟨_, _, _, _, rfl⟩⟩
  | _ => exact .inl rfl

theorem eq_of_closed (h : Step a call r a') (hclosed : a.status = .closed) : a' = a := by
  cases h with
  | raised => rfl
  | ignored => rfl
  | debited h => rw [h] at hclosed; cases hclosed
  | credited h => rw [h] at hclosed; cases hclosed
  | froze h => rw [h] at hclosed; cases hclosed
  | unfroze h => rw [h] at hclosed; cases hclosed
  | closed h => exact absurd hclosed h

theorem emptyWhenClosed (h : Step a call r a') (ha : a.status = .closed → a.balance.cents = 0) :
    a'.status = .closed → a'.balance.cents = 0 := by
  cases h with
  | raised => exact ha
  | ignored => exact ha
  | debited h => simp [moved, h]
  | credited h => simp [moved, h]
  | froze => simp [turned]
  | unfroze => simp [turned]
  | closed _ hzero => exact fun _ => hzero

end Step

theorem sameAccount_after (a : Account) (calls : List Call) : (a.after calls).SameAccount a := by
  induction calls using List.reverseRecOn with
  | nil => exact ⟨rfl, rfl, rfl, rfl⟩
  | append_singleton calls call ih =>
    rw [after_concat]
    obtain ⟨hid, howner, hnumber, hcurrency⟩ := (step_called (a.after calls) call).sameAccount
    obtain ⟨hid', howner', hnumber', hcurrency'⟩ := ih
    exact ⟨hid.trans hid', howner.trans howner', hnumber.trans hnumber', hcurrency.trans hcurrency'⟩

theorem after_of_closed {a : Account} (h : a.status = .closed) (calls : List Call) :
    a.after calls = a := by
  induction calls using List.reverseRecOn with
  | nil => rfl
  | append_singleton calls call ih =>
    rw [after_concat, ih]
    exact (step_called a call).eq_of_closed h

theorem emptyWhenClosed_after {a : Account} (h : a.status = .closed → a.balance.cents = 0)
    (calls : List Call) :
    (a.after calls).status = .closed → (a.after calls).balance.cents = 0 := by
  induction calls using List.reverseRecOn with
  | nil => exact h
  | append_singleton calls call ih =>
    rw [after_concat]
    exact (step_called _ call).emptyWhenClosed ih

/-- What `Account.create` makes: an active account, and the event that says so. -/
theorem created {draws : AccountDraws} {ownerId : UUID} {currency : Currency}
    {initialBalance : Option Money} {a : Account}
    (h : create draws ownerId currency initialBalance = .ok a) :
    a.status = .active ∧ a.recorded = a.domainEvents ∧ a.domainEvents = [draws.created.event
      (.accountCreated a.id a.ownerId a.balance.currency.value a.balance.amount)] := by
  have hsome (balance : Money)
      (h : create draws ownerId currency (some balance) = .ok a) := (create_ok h).2
  cases initialBalance with
  | some balance =>
    rw [hsome balance h]
    exact ⟨rfl, rfl, rfl⟩
  | none =>
    -- without an initial balance the account is created with zero
    obtain ⟨balance, -, h⟩ := bind_eq_ok.mp h
    rw [hsome balance h]
    exact ⟨rfl, rfl, rfl⟩

/-- What holds of an account `a₀` after a sequence of calls, and of the calls that follow. -/
structure StateMachine (a₀ : Account) (calls : List Call) : Prop where
  sameAccount : (a₀.after calls).SameAccount a₀
  wholeCents : ∃ n : ℕ, (a₀.after calls).balance.amount.value = n / 100
  balance : ∀ call, (a₀.after (calls ++ [call])).balance ≠ (a₀.after calls).balance →
    (a₀.after calls).status = .active ∧
      ((∃ amount transactionId now stamp, call = .debit amount transactionId now stamp) ∨
        ∃ amount transactionId now stamp, call = .credit amount transactionId now stamp)
  closedEmpty : (a₀.after calls).status = .closed → (a₀.after calls).balance.amount.value = 0
  closedFinal : (a₀.after calls).status = .closed →
    ∀ more, a₀.after (calls ++ more) = a₀.after calls
  raises : ∀ call e, (call.method.on (a₀.after calls)).1 = .error e →
    a₀.after (calls ++ [call]) = a₀.after calls

/-- Every sequence of calls on a new account keeps to its state machine. -/
theorem account_state_machine {draws : AccountDraws} {ownerId : UUID} {currency : Currency}
    {initialBalance : Option Money} {a₀ : Account}
    (h : create draws ownerId currency initialBalance = .ok a₀) (calls : List Call) :
    a₀.StateMachine calls := by
  have hactive : a₀.status = .active := (created h).1
  refine ⟨sameAccount_after a₀ calls, ⟨_, Money.value_amount _⟩, ?_, ?_, ?_, ?_⟩
  · intro call hne
    rw [after_concat] at hne
    exact (step_called _ call).balance_eq.resolve_left hne
  · intro hclosed
    have hzero := emptyWhenClosed_after (a := a₀) (by simp [hactive]) calls hclosed
    rw [Money.value_amount, hzero]
    norm_num
  · intro hclosed more
    have hsplit : a₀.after (calls ++ more) = (a₀.after calls).after more := by
      simp [after, List.foldl_append]
    rw [hsplit, after_of_closed hclosed]
  · intro call e he
    have hstep := step_called (a₀.after calls) call
    rw [he] at hstep
    rw [after_concat]
    exact hstep.eq_of_error

namespace Sample

def balance : Money := ⟨.finite false 10000 (-2), .EUR, by decide⟩

/-- A new account that holds 100 EUR. -/
def opened : Account :=
  { reconstitute 1 9 (generateAccountNumber fun _ => Fin.last 9) balance .active 0 0 with
    domainEvents := [⟨0, 0, .accountCreated 1 9 "EUR" balance.amount⟩]
    recorded := [⟨0, 0, .accountCreated 1 9 "EUR" balance.amount⟩] }

theorem create_eq :
    create ⟨1, 0, 0, fun _ => Fin.last 9, ⟨0, 0⟩⟩ 9 .EUR (some balance) = .ok opened := rfl

end Sample

theorem account_state_machine_sample : Sample.opened.StateMachine
    [.freeze "audit" 1 ⟨1, 1⟩, .debit Sample.balance 3 2 ⟨2, 2⟩, .close 3 ⟨3, 3⟩] :=
  account_state_machine Sample.create_eq _

end Account

/-! ## Replaying events -/

namespace EventBody

/-- What an event adds to the balance. -/
def moved : EventBody → ℚ
  | balanceDebited _ _ amount _ _ => -amount.value
  | balanceCredited _ _ amount _ _ => amount.value
  | _ => 0

def balanceAfter : EventBody → Option Decimal
  | balanceDebited _ _ _ _ balanceAfter => some balanceAfter
  | balanceCredited _ _ _ _ balanceAfter => some balanceAfter
  | _ => none

/-- The status that an event announces. -/
def statusSet : EventBody → Option AccountStatus
  | accountFrozen .. => some .frozen
  | accountUnfrozen .. => some .active
  | accountClosed .. => some .closed
  | _ => none

/-- `true` for a freeze, `false` for its end. -/
def freezing : EventBody → Option Bool
  | accountFrozen .. => some true
  | accountUnfrozen .. => some false
  | _ => none

def isCreated : EventBody → Bool
  | accountCreated .. => true
  | _ => false

end EventBody

/-- The account as its events tell it. -/
structure Ledger where
  balance : ℚ
  status : AccountStatus
  deriving DecidableEq

namespace Ledger

/-- The ledger after one more event; `none` when the event cannot follow. -/
def apply (l : Ledger) (body : EventBody) : Option Ledger :=
  match body with
  | .balanceDebited _ _ amount _ balanceAfter =>
    if l.status = .active ∧ balanceAfter.value = l.balance - amount.value then
      some { l with balance := balanceAfter.value }
    else none
  | .balanceCredited _ _ amount _ balanceAfter =>
    if l.status = .active ∧ balanceAfter.value = l.balance + amount.value then
      some { l with balance := balanceAfter.value }
    else none
  | .accountFrozen .. => if l.status = .active then some { l with status := .frozen } else none
  | .accountUnfrozen .. => if l.status = .frozen then some { l with status := .active } else none
  | .accountClosed .. =>
    if l.status ≠ .closed ∧ l.balance = 0 then some { l with status := .closed } else none
  | _ => none

def replay (l : Ledger) (bodies : List EventBody) : Option Ledger := bodies.foldlM apply l

theorem replay_append {l l' : Ledger} {bodies bodies' : List EventBody} :
    l.replay (bodies ++ bodies') = some l' ↔
      ∃ m, l.replay bodies = some m ∧ m.replay bodies' = some l' := by
  simp [replay, List.foldlM_append, Option.bind_eq_some_iff]

theorem replay_cons {l l' : Ledger} {body : EventBody} {bodies : List EventBody} :
    l.replay (body :: bodies) = some l' ↔
      ∃ m, l.apply body = some m ∧ m.replay bodies = some l' := by
  simp [replay, List.foldlM_cons, Option.bind_eq_some_iff]

/-- Everything that an event that can follow says. -/
theorem apply_spec {l l' : Ledger} {body : EventBody} (h : l.apply body = some l') :
    l.status ≠ .closed ∧ body.isCreated = false ∧ l'.balance = l.balance + body.moved ∧
      (∀ b, body.balanceAfter = some b → b.value = l'.balance) ∧
      l'.status = body.statusSet.getD l.status ∧
      (∀ f, body.freezing = some f → f = !decide (l.status = .frozen) ∧
        f = decide (l'.status = .frozen)) ∧
      (body.freezing = none → l'.status = .closed ∨ l'.status = l.status) := by
  cases body with
  | balanceDebited accountId transactionId amount currency balanceAfter =>
    simp only [apply, Option.ite_none_right_eq_some, Option.some.injEq] at h
    obtain ⟨⟨hactive, hafter⟩, rfl⟩ := h
    simp [EventBody.isCreated, EventBody.moved, EventBody.balanceAfter, EventBody.statusSet,
      EventBody.freezing, hactive, hafter, sub_eq_add_neg]
  | balanceCredited accountId transactionId amount currency balanceAfter =>
    simp only [apply, Option.ite_none_right_eq_some, Option.some.injEq] at h
    obtain ⟨⟨hactive, hafter⟩, rfl⟩ := h
    simp [EventBody.isCreated, EventBody.moved, EventBody.balanceAfter, EventBody.statusSet,
      EventBody.freezing, hactive, hafter]
  | accountFrozen accountId ownerId reason =>
    simp only [apply, Option.ite_none_right_eq_some, Option.some.injEq] at h
    obtain ⟨hactive, rfl⟩ := h
    simp [EventBody.isCreated, EventBody.moved, EventBody.balanceAfter, EventBody.statusSet,
      EventBody.freezing, hactive]
  | accountUnfrozen accountId ownerId =>
    simp only [apply, Option.ite_none_right_eq_some, Option.some.injEq] at h
    obtain ⟨hfrozen, rfl⟩ := h
    simp [EventBody.isCreated, EventBody.moved, EventBody.balanceAfter, EventBody.statusSet,
      EventBody.freezing, hfrozen]
  | accountClosed accountId ownerId =>
    simp only [apply, Option.ite_none_right_eq_some, Option.some.injEq] at h
    obtain ⟨⟨hopen, hzero⟩, rfl⟩ := h
    simp [EventBody.isCreated, EventBody.moved, EventBody.balanceAfter, EventBody.statusSet,
      EventBody.freezing, hopen]
  | _ => simp [apply] at h

/-- Nothing can be replayed on a closed ledger. -/
theorem replay_closed {l l' : Ledger} {bodies : List EventBody} (hclosed : l.status = .closed)
    (h : l.replay bodies = some l') : bodies = [] := by
  cases bodies with
  | nil => rfl
  | cons body bodies =>
    obtain ⟨m, hm, -⟩ := replay_cons.mp h
    exact absurd hclosed (apply_spec hm).1

theorem replay_not_created {l l' : Ledger} {bodies : List EventBody}
    (h : l.replay bodies = some l') : ∀ body ∈ bodies, body.isCreated = false := by
  induction bodies generalizing l with
  | nil => simp
  | cons body bodies ih =>
    obtain ⟨m, hm, hrest⟩ := replay_cons.mp h
    exact List.forall_mem_cons.mpr ⟨(apply_spec hm).2.1, ih hrest⟩

theorem replay_balance {l l' : Ledger} {bodies : List EventBody} (h : l.replay bodies = some l') :
    l'.balance = l.balance + (bodies.map (·.moved)).sum := by
  induction bodies generalizing l with
  | nil =>
    obtain rfl : l = l' := by simpa [replay] using h
    simp
  | cons body bodies ih =>
    obtain ⟨m, hm, hrest⟩ := replay_cons.mp h
    have hmoved := (apply_spec hm).2.2.1
    rw [ih hrest, hmoved, List.map_cons, List.sum_cons, add_assoc]

theorem replay_balanceAfter {l l' : Ledger} {earlier later : List EventBody} {body : EventBody}
    (h : l.replay (earlier ++ body :: later) = some l') {b : Decimal}
    (hb : body.balanceAfter = some b) :
    b.value = l.balance + ((earlier ++ [body]).map (·.moved)).sum := by
  obtain ⟨m, hearlier, hrest⟩ := replay_append.mp h
  obtain ⟨m', hbody, -⟩ := replay_cons.mp hrest
  have hprefix : l.replay (earlier ++ [body]) = some m' :=
    replay_append.mpr ⟨m, hearlier, replay_cons.mpr ⟨m', hbody, rfl⟩⟩
  rw [← replay_balance hprefix]
  exact (apply_spec hbody).2.2.2.1 b hb

theorem replay_status {l l' : Ledger} {bodies : List EventBody} (h : l.replay bodies = some l') :
    l'.status = ((bodies.filterMap (·.statusSet)).getLast?).getD l.status := by
  induction bodies using List.reverseRecOn generalizing l' with
  | nil =>
    obtain rfl : l = l' := by simpa [replay] using h
    rfl
  | append_singleton bodies body ih =>
    obtain ⟨m, hearlier, hrest⟩ := replay_append.mp h
    obtain ⟨m', hbody, hm'⟩ := replay_cons.mp hrest
    obtain rfl : m' = l' := by simpa [replay] using hm'
    have hstatus := (apply_spec hbody).2.2.2.2.1
    rw [hstatus, List.filterMap_append]
    cases hset : body.statusSet with
    | none => simpa [hset] using ih hearlier
    | some status => simp [hset]

theorem replay_alternates {l l' : Ledger} {bodies : List EventBody}
    (h : l.replay bodies = some l') :
    (decide (l.status = .frozen) :: bodies.filterMap (·.freezing)).IsChain (· ≠ ·) := by
  induction bodies generalizing l with
  | nil => simp
  | cons body bodies ih =>
    obtain ⟨m, hm, hrest⟩ := replay_cons.mp h
    obtain ⟨-, -, -, -, -, hfreezing, hother⟩ := apply_spec hm
    cases hf : body.freezing with
    | none =>
      rw [List.filterMap_cons_none hf]
      rcases hother hf with hclosed | hsame
      · obtain rfl := replay_closed hclosed hrest
        simp
      · rw [← hsame]
        exact ih hrest
    | some f =>
      obtain ⟨hbefore, hafter⟩ := hfreezing f hf
      rw [List.filterMap_cons_some hf, List.isChain_cons_cons]
      refine ⟨by simp [hbefore], ?_⟩
      rw [hafter]
      exact ih hrest

theorem replay_final {l l' : Ledger} {earlier later : List EventBody} {body : EventBody}
    (h : l.replay (earlier ++ body :: later) = some l') (hbody : body.statusSet = some .closed) :
    later = [] := by
  obtain ⟨m, -, hrest⟩ := replay_append.mp h
  obtain ⟨m', hm', hlater⟩ := replay_cons.mp hrest
  have hstatus := (apply_spec hm').2.2.2.2.1
  rw [hbody] at hstatus
  exact replay_closed hstatus hlater

end Ledger

namespace Account

/-- The ledger that the account stands for. -/
def ledger (a : Account) : Ledger := ⟨a.balance.amount.value, a.status⟩

theorem ledger_eq (a : Account) : a.ledger = ⟨a.balance.cents / 100, a.status⟩ := by
  rw [ledger, Money.value_amount]

/-- A call records the events that take the ledger to where it takes the account. -/
theorem Step.told {a a' : Account} {call : Call} {r : Except Exn Unit} (h : Step a call r a') :
    ∃ events, a'.domainEvents = a.domainEvents ++ events ∧ a'.recorded = a.recorded ++ events ∧
      a.ledger.replay (events.map (·.body)) = some a'.ledger := by
  cases h with
  | raised => exact ⟨[], by simp, by simp, rfl⟩
  | ignored => exact ⟨[], by simp, by simp, rfl⟩
  | debited h amount b _ _ _ _ hcents =>
    have hvalue : (b.amount.value : ℚ) = a.balance.amount.value - amount.amount.value := by
      have hcast : (b.cents : ℚ) + amount.cents = a.balance.cents := by exact_mod_cast hcents
      rw [Money.value_amount, Money.value_amount, Money.value_amount, ← hcast]
      ring
    refine ⟨[_], rfl, rfl, ?_⟩
    simp [Ledger.replay, Ledger.apply, ledger, moved, h, hvalue]
  | credited h amount b _ _ _ _ hcents =>
    have hvalue : (b.amount.value : ℚ) = a.balance.amount.value + amount.amount.value := by
      rw [Money.value_amount, Money.value_amount, Money.value_amount, hcents]
      push_cast
      ring
    refine ⟨[_], rfl, rfl, ?_⟩
    simp [Ledger.replay, Ledger.apply, ledger, moved, h, hvalue]
  | froze h =>
    refine ⟨[_], rfl, rfl, ?_⟩
    simp [Ledger.replay, Ledger.apply, ledger, turned, h]
  | unfroze h =>
    refine ⟨[_], rfl, rfl, ?_⟩
    simp [Ledger.replay, Ledger.apply, ledger, turned, h]
  | closed h hzero =>
    refine ⟨[_], rfl, rfl, ?_⟩
    simp [Ledger.replay, Ledger.apply, ledger_eq, turned, h, hzero]

/-! ## Draining the events -/

inductive Action where
  | call (call : Call)
  | collectEvents
  deriving DecidableEq

/-- An account in use, with the batches of events collected from it so far. -/
structure Session where
  account : Account
  batches : List (List DomainEvent)
  deriving DecidableEq

namespace Session

def start (a : Account) : Session := ⟨a, []⟩

def act (s : Session) : Action → Session
  | .call call => { s with account := s.account.called call }
  | .collectEvents =>
    ⟨s.account.collectEvents.2, s.batches ++ [s.account.collectEvents.1]⟩

def after (s : Session) (actions : List Action) : Session := actions.foldl act s

/-- The events collected so far, and then those still pending. -/
def stream (s : Session) : List DomainEvent := s.batches.flatten ++ s.account.domainEvents

@[simp] theorem after_concat (s : Session) (actions : List Action) (action : Action) :
    s.after (actions ++ [action]) = (s.after actions).act action := by
  simp [after, List.foldl_append]

/-- The stream has every event once, and its replay from `l` ends in the account. -/
structure Told (l : Ledger) (created : List DomainEvent) (s : Session) : Prop where
  stream_eq : s.stream = s.account.recorded
  replays : ∃ events, s.stream = created ++ events ∧
    l.replay (events.map (·.body)) = some s.account.ledger

/-- One action keeps stream and account in step. -/
theorem told_act {l : Ledger} {created : List DomainEvent} {s : Session}
    (h : Told l created s) (action : Action) : Told l created (s.act action) := by
  obtain ⟨hstream, events, hevents, hreplay⟩ := h
  cases action with
  | call call =>
    obtain ⟨new, hdomain, hrecorded, htold⟩ := (step_called s.account call).told
    have hstream' : (s.act (.call call)).stream = s.stream ++ new := by
      simp [stream, act, hdomain, List.append_assoc]
    refine ⟨?_, events ++ new, ?_, ?_⟩
    · rw [hstream', hstream]
      exact hrecorded.symm
    · rw [hstream', hevents, List.append_assoc]
    · rw [List.map_append]
      exact Ledger.replay_append.mpr ⟨_, hreplay, htold⟩
  | collectEvents =>
    have hsame : (s.act .collectEvents).stream = s.stream := by
      simp [stream, act, Account.collectEvents, AggregateRoot.cleared]
    refine ⟨?_, events, ?_, hreplay⟩
    · rw [hsame, hstream]
      rfl
    · rw [hsame, hevents]

theorem told_after {l : Ledger} {created : List DomainEvent} {s : Session}
    (h : Told l created s) (actions : List Action) : Told l created (s.after actions) := by
  induction actions using List.reverseRecOn with
  | nil => exact h
  | append_singleton actions action ih =>
    rw [after_concat]
    exact told_act ih action

end Session

/-- The events `bodies` of an account `a` that was created as `a₀` are its ledger. -/
structure FaithfulLedger (a₀ a : Account) (bodies : List EventBody) : Prop where
  begins : ∃ rest, bodies =
      .accountCreated a₀.id a₀.ownerId a₀.balance.currency.value a₀.balance.amount :: rest ∧
    ∀ body ∈ rest, body.isCreated = false
  balance : a.balance.amount.value = a₀.balance.amount.value + (bodies.map (·.moved)).sum
  balanceAfter : ∀ earlier body later b, bodies = earlier ++ body :: later →
    body.balanceAfter = some b →
      b.value = a₀.balance.amount.value + ((earlier ++ [body]).map (·.moved)).sum
  status : a.status = ((bodies.filterMap (·.statusSet)).getLast?).getD .active
  /-- A freeze comes first, and every other freeze ends the one before. -/
  alternates : (false :: bodies.filterMap (·.freezing)).IsChain (· ≠ ·)
  final : ∀ earlier body later, bodies = earlier ++ body :: later →
    body.statusSet = some .closed → later = []

/-- What can be replayed from a new account is a faithful ledger. -/
theorem faithful_of_replay {a₀ a : Account} {rest : List EventBody}
    (h : Ledger.replay ⟨a₀.balance.amount.value, .active⟩ rest = some a.ledger) :
    FaithfulLedger a₀ a (.accountCreated a₀.id a₀.ownerId a₀.balance.currency.value
      a₀.balance.amount :: rest) := by
  refine ⟨⟨rest, rfl, Ledger.replay_not_created h⟩, ?_, ?_, ?_, ?_, ?_⟩
  · have hbalance : a.balance.amount.value = _ := Ledger.replay_balance h
    simpa [EventBody.moved] using hbalance
  · intro earlier body later b hbodies hb
    cases earlier with
    | nil =>
      obtain ⟨rfl, -⟩ := List.cons.inj hbodies
      cases hb
    | cons first earlier =>
      obtain ⟨rfl, hrest⟩ := List.cons.inj hbodies
      have hafter := Ledger.replay_balanceAfter (hrest ▸ h) hb
      simpa [EventBody.moved] using hafter
  · have hstatus : a.status = _ := Ledger.replay_status h
    simpa [EventBody.statusSet] using hstatus
  · have hchain := Ledger.replay_alternates h
    simpa [EventBody.freezing] using hchain
  · intro earlier body later hbodies hbody
    cases earlier with
    | nil =>
      obtain ⟨rfl, -⟩ := List.cons.inj hbodies
      cases hbody
    | cons first earlier =>
      obtain ⟨-, hrest⟩ := List.cons.inj hbodies
      exact Ledger.replay_final (hrest ▸ h) hbody

/-- Collected and pending events together hold every event once, and are the ledger of
the account. -/
theorem account_event_stream {draws : AccountDraws} {ownerId : UUID} {currency : Currency}
    {initialBalance : Option Money} {a₀ : Account}
    (h : create draws ownerId currency initialBalance = .ok a₀) (actions : List Action) :
    ((Session.start a₀).after actions).stream =
        ((Session.start a₀).after actions).account.recorded ∧
      FaithfulLedger a₀ ((Session.start a₀).after actions).account
        (((Session.start a₀).after actions).stream.map (·.body)) := by
  obtain ⟨hactive, hrecorded, hevents⟩ := created h
  have hstart : Session.Told a₀.ledger a₀.domainEvents (.start a₀) :=
    ⟨by simp [Session.stream, Session.start, hrecorded],
      [], by simp [Session.stream, Session.start], rfl⟩
  obtain ⟨hstream, events, hsplit, hreplay⟩ := Session.told_after hstart actions
  refine ⟨hstream, ?_⟩
  rw [ledger, hactive] at hreplay
  rw [hsplit, hevents]
  exact faithful_of_replay hreplay

theorem account_event_stream_sample :
    let s := (Session.start Sample.opened).after [.call (.debit Sample.balance 3 1 ⟨1, 1⟩),
      .collectEvents, .call (.freeze "audit" 2 ⟨2, 2⟩), .call (.close 3 ⟨3, 3⟩)]
    s.stream = s.account.recorded ∧
      FaithfulLedger Sample.opened s.account (s.stream.map (·.body)) :=
  account_event_stream Sample.create_eq _

end Account

end BankingTransactions
