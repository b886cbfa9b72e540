import BankingTransactions.TransferEffects
import BankingTransactions.Retries

/-!
# Transfers that do not depend on each other

Two calls with different keys, alone and without failures, in both orders. Where they share
no account, each finds the rows that it would have found without the other, so that both orders
tell the callers the same and leave the same behind. Where they share accounts, what is told
may depend on the order; when all of the calls return, the balances still do not.
-/
namespace BankingTransactions
open DecimalArithmetic InteractionPrograms ThreadPools CommutingActions

/-! ## What a transfer leaves alone -/

namespace TransferCommand

variable {command other : TransferCommand} {draws : TransferDraws} {db : Database}

def accounts (command : TransferCommand) : List AccountId :=
  [command.fromAccountId, command.toAccountId]

/-- No account occurs in both commands. -/
def Apart (command other : TransferCommand) : Prop := ∀ id ∈ command.accounts, id ∉ other.accounts

-- Account ids are finitely many: the instance that is found by itself tries them all.
instance : Decidable (Apart command other) :=
  List.decidableBAll (fun id => id ∉ other.accounts) command.accounts

theorem Apart.symm (h : command.Apart other) : other.Apart command :=
  fun id hother hid => h id hid hother

/-- A call changes the database by a legal commit, or not at all. -/
theorem act_cases (command : TransferCommand) (hwhole : db.Whole)
    (hnew : db.findTransaction draws.tx.id = none) :
    (command.act draws db).2 = db ∨
      ∃ w, Commit.Legal ⟨0, .transfer draws command, db, w, (command.act draws db).2⟩ := by
  rcases serial_cases hwhole hwhole ⟨rfl, rfl, rfl⟩ hnew hnew with
    ⟨row, hfound⟩ | ⟨e, hserial, -⟩ | ⟨_, _, _, _, _, _, _, _, -, -, -, hran, -⟩
  · exact .inl (by rw [act_of_found hfound])
  · exact .inl (by rw [act_of_unchanged hserial])
  · exact .inr ⟨_, by rw [hran.act]; exact hran.legal⟩

theorem act_whole (hwhole : db.Whole) (hnew : db.findTransaction draws.tx.id = none) :
    (command.act draws db).2.Whole := by
  rcases act_cases command hwhole hnew with hsame | ⟨w, hlegal⟩
  · rwa [hsame]
  · exact hlegal.whole hwhole

theorem act_new (hwhole : db.Whole) (hnew : db.findTransaction draws.tx.id = none) {id : UUID}
    (hid : id ≠ draws.tx.id) (h : db.findTransaction id = none) :
    (command.act draws db).2.findTransaction id = none := by
  rcases act_cases command hwhole hnew with hsame | ⟨w, hlegal⟩
  · rwa [hsame]
  · exact (hlegal.ids hwhole id hid).2 h

/-- Other keys are found, or not found, as before. -/
theorem act_findByKey (hwhole : db.Whole) (hnew : db.findTransaction draws.tx.id = none)
    {key : String} (hkey : key ≠ command.idempotencyKey) :
    (command.act draws db).2.findByKey key = db.findByKey key := by
  rcases act_cases command hwhole hnew with hsame | ⟨w, hlegal⟩
  · rw [hsame]
  · have hrow : ∃ row : TransactionRow, row.idempotencyKey = command.idempotencyKey ∧
        (command.act draws db).2.transactions = db.transactions ++ [row] := by
      obtain ⟨_, _, _, _, _, _, _, _, hcompletes⟩ | ⟨_, _, _, _, _, hfails⟩ :=
        Commit.legal_transfer hlegal hwhole rfl
      · exact ⟨_, rfl, hcompletes.transactions⟩
      · exact ⟨_, rfl, hfails.transactions⟩
    obtain ⟨row, hrowKey, htransactions⟩ := hrow
    rw [Database.findByKey, htransactions, List.find?_append, List.find?_cons_of_neg]
    · simp [Database.findByKey]
    · simpa [hrowKey] using hkey.symm

/-- Other accounts are left alone. -/
theorem act_findAccount (hwhole : db.Whole) (hnew : db.findTransaction draws.tx.id = none)
    {id : AccountId} (hid : id ∉ command.accounts) :
    (command.act draws db).2.findAccount id = db.findAccount id := by
  simp only [accounts, List.mem_cons, List.not_mem_nil, or_false, not_or] at hid
  rcases act_cases command hwhole hnew with hsame | ⟨w, hlegal⟩
  · rw [hsame]
  · obtain ⟨_, _, _, _, _, _, _, _, hcompletes⟩ | ⟨_, _, _, _, _, hfails⟩ :=
      Commit.legal_transfer hlegal hwhole rfl
    · have hfind := hcompletes.accounts id
      rwa [if_neg hid.1, if_neg hid.2] at hfind
    · exact hfails.findAccount id

/-- A call leaves the rows of a command apart from it. -/
theorem act_sameRows (hwhole : db.Whole) (hnew : db.findTransaction draws.tx.id = none)
    (hkey : other.idempotencyKey ≠ command.idempotencyKey) (happart : other.Apart command) :
    other.SameRows db (command.act draws db).2 where
  key := (act_findByKey hwhole hnew hkey).symm
  sender := (act_findAccount hwhole hnew (happart _ (by simp [accounts]))).symm
  receiver := (act_findAccount hwhole hnew (happart _ (by simp [accounts]))).symm

/-! ## Both orders on the database -/

/-- Two ids that are not in use, and are not the same. -/
structure Unused (db : Database) (draws draws' : TransferDraws) : Prop where
  first : db.findTransaction draws.tx.id = none
  second : db.findTransaction draws'.tx.id = none
  distinct : draws.tx.id ≠ draws'.tx.id

theorem Unused.symm {draws' : TransferDraws} (h : Unused db draws draws') :
    Unused db draws' draws :=
  ⟨h.second, h.first, h.distinct.symm⟩

variable {first second first' second' : TransferDraws}

/-- A call with its id still unused after another call. -/
theorem act_still_new (other : TransferCommand) (hwhole : db.Whole)
    (hunused : Unused db first second) :
    (other.act second db).2.Whole ∧ (other.act second db).2.findTransaction first.tx.id = none :=
  ⟨act_whole hwhole hunused.second,
    act_new hwhole hunused.second hunused.distinct hunused.first⟩

/-- With no account in common, both orders are alike as far as nothing is generated. -/
theorem act_commute (hwhole : db.Whole) (hkeys : command.idempotencyKey ≠ other.idempotencyKey)
    (happart : command.Apart other) (hunused : Unused db first second)
    (hunused' : Unused db first' second') :
    AlikeOutcome (command.act first db).1 (command.act first' (other.act second' db).2).1 ∧
      AlikeOutcome (other.act second (command.act first db).2).1 (other.act second' db).1 ∧
      ∃ δ δ', db.Adds δ (other.act second (command.act first db).2).2 ∧
        db.Adds δ' (command.act first' (other.act second' db).2).2 ∧ δ.anonymous = δ'.anonymous := by
  obtain ⟨hafter, hnew⟩ := act_still_new other hwhole hunused'
  obtain ⟨hafter', hnew'⟩ := act_still_new command hwhole hunused.symm
  have hrows := act_sameRows hwhole hunused'.second hkeys happart
  have hrows' := act_sameRows hwhole hunused.first hkeys.symm happart.symm
  have hcommand := act_alike hwhole hafter hrows hunused.first hnew
  have hother := act_alike hafter' hwhole hrows'.symm hnew' hunused'.second
  exact hcommand.commute hother

/-- With the same draws in both orders, the outcomes and all that is added are the same. -/
theorem act_exchange (hwhole : db.Whole) (hkeys : command.idempotencyKey ≠ other.idempotencyKey)
    (happart : command.Apart other) (hunused : Unused db first second) :
    (command.act first db).1 = (command.act first (other.act second db).2).1 ∧
      (other.act second (command.act first db).2).1 = (other.act second db).1 ∧
      ∃ δ, db.Adds δ (other.act second (command.act first db).2).2 ∧
        db.Adds δ (command.act first (other.act second db).2).2 := by
  obtain ⟨hafter, hnew⟩ := act_still_new other hwhole hunused
  obtain ⟨hafter', hnew'⟩ := act_still_new command hwhole hunused.symm
  have hrows := act_sameRows hwhole hunused.second hkeys happart
  have hrows' := act_sameRows hwhole hunused.first hkeys.symm happart.symm
  have hcommand := act_same hwhole hafter hrows hunused.first hnew
  have hother := act_same hafter' hwhole hrows'.symm hnew' hunused.second
  obtain ⟨houtcome, houtcome', δ, δ', hadds, hadds', hsame⟩ := hcommand.commute hother
  have hδ : δ = δ' := hsame
  exact ⟨houtcome, houtcome', δ, hadds, hδ ▸ hadds'⟩

/-- A call that returns moves the same before and after a call with another key. -/
theorem act_moves (hwhole : db.Whole) (hkeys : command.idempotencyKey ≠ other.idempotencyKey)
    (hunused : db.findTransaction first.tx.id = none) (hunused' : Unused db first' second')
    (hok : (command.act first db).1.isOk = true)
    (hok' : (command.act first' (other.act second' db).2).1.isOk = true) :
    ∃ δ δ', db.Adds δ (command.act first db).2 ∧
      (other.act second' db).2.Adds δ' (command.act first' (other.act second' db).2).2 ∧
      δ.1 = δ'.1 := by
  obtain ⟨hafter, hnew⟩ := act_still_new other hwhole hunused'
  obtain ⟨δ, hadds, hmoves⟩ := act_adds hwhole hunused hok
  obtain ⟨δ', hadds', hmoves'⟩ := act_adds hafter hnew hok'
  refine ⟨δ, δ', hadds, hadds', ?_⟩
  rw [hmoves, hmoves']
  funext id
  rw [moves, moves, act_findByKey hwhole hunused'.second hkeys]

/-- When all calls return, both orders add the same to the balances, whatever accounts the
commands share. -/
theorem act_balances (hwhole : db.Whole) (hkeys : command.idempotencyKey ≠ other.idempotencyKey)
    (hunused : Unused db first second) (hunused' : Unused db first' second')
    (hok : (command.act first db).1.isOk = true)
    (hok₂ : (other.act second (command.act first db).2).1.isOk = true)
    (hok' : (other.act second' db).1.isOk = true)
    (hok₂' : (command.act first' (other.act second' db).2).1.isOk = true) (id : AccountId) :
    (other.act second (command.act first db).2).2.standing id =
      (command.act first' (other.act second' db).2).2.standing id := by
  obtain ⟨α, α', hα, hα', hfst⟩ := act_moves hwhole hkeys hunused.first hunused' hok hok₂'
  obtain ⟨β', β, hβ', hβ, hfst'⟩ :=
    act_moves hwhole hkeys.symm hunused'.second hunused.symm hok' hok₂
  have hone := (hα.trans hβ).accounts id
  have htwo := (hβ'.trans hα').accounts id
  rw [hone, htwo, Prod.fst_add, Prod.fst_add, hfst, hfst', add_comm α'.1]

end TransferCommand

/-! ## Both orders on the server -/

/-- What two calls tell, and the database that they leave. -/
structure Served where
  first : Except Exn Response
  second : Except Exn Response
  db : Database

/-- Two calls, one after the other. -/
def Server.inTurn (s : Server) (r r' : Request) : Served :=
  ⟨s.outcome r, (s.after r).outcome r', ((s.after r).after r').db⟩

/-- Two databases that differ, as far as nothing is generated, in nothing added since `start`. -/
structure Database.AlikeSince (start db db' : Database) : Prop where
  accounts : ∀ id, db.standing id = db'.standing id
  transactions : ∃ rows rows' : Multiset TransactionRow,
    (db.transactions : Multiset TransactionRow) = start.transactions + rows ∧
    (db'.transactions : Multiset TransactionRow) = start.transactions + rows' ∧
    rows.map TransactionRecord.anonymous = rows'.map TransactionRecord.anonymous
  outbox : ∃ messages messages' : Multiset OutboxMessage,
    (db.outbox : Multiset OutboxMessage) = start.outbox + messages ∧
    (db'.outbox : Multiset OutboxMessage) = start.outbox + messages' ∧
    messages.map OutboxMessage.anonymous = messages'.map OutboxMessage.anonymous

theorem Database.Adds.alikeSince {δ δ' : Delta} {start db db' : Database} (h : start.Adds δ db)
    (h' : start.Adds δ' db') (hsame : δ.anonymous = δ'.anonymous) : start.AlikeSince db db' := by
  obtain ⟨hadded, hrows⟩ := Prod.ext_iff.mp hsame
  have hbalances : δ.1 = δ'.1 := hadded
  constructor
  · intro id
    rw [h.accounts, h'.accounts, hbalances]
  · exact ⟨δ.2.1, δ'.2.1, h.transactions, h'.transactions, congrArg Prod.fst hrows⟩
  · exact ⟨δ.2.2, δ'.2.2, h.outbox, h'.outbox, congrArg Prod.snd hrows⟩

/-- Two calls on an idle server are two actions on its database. -/
theorem Server.inTurn_act {s : Server} (hs : s.Idle) (hwhole : s.db.Whole)
    (command other : TransferCommand) {first second : TransferDraws}
    (hunused : TransferCommand.Unused s.db first second) :
    s.inTurn (.transfer first command) (.transfer second other) =
      ⟨(command.act first s.db).1, (other.act second (command.act first s.db).2).1,
        (other.act second (command.act first s.db).2).2⟩ := by
  obtain ⟨hidle, hdb, houtcome⟩ := Server.transfer_left hs hunused.first command
  have hnew := (TransferCommand.act_still_new command hwhole hunused.symm).2
  have hafter : (s.after (.transfer first command)).db = (command.act first s.db).2 := hdb
  obtain ⟨-, hdb', houtcome'⟩ := Server.transfer_left hidle (hafter ▸ hnew) other
  rw [Server.inTurn, hdb', houtcome', houtcome, hdb]
  rfl

/-- Ids that two calls can draw: neither was issued before, and they are not the same. -/
structure FreshDraws (issued : List UUID) (draws draws' : TransferDraws) : Prop where
  first : draws.tx.id ∉ issued
  second : draws'.tx.id ∉ issued
  distinct : draws.tx.id ≠ draws'.tx.id

theorem SystemReachable.unusedDraws {p : System} (h : SystemReachable p)
    {first second : TransferDraws} (hfresh : FreshDraws p.shared.issued first second) :
    TransferCommand.Unused p.shared.atRest.db first second :=
  ⟨(h.unused hfresh.first).2, (h.unused hfresh.second).2, hfresh.distinct⟩

/-- Transfers with different keys, one after the other in both orders, with whatever they
draw. Without an account in common they end alike and leave the same behind, up to what is
generated. When all of the calls return, the accounts stand the same in any case. -/
theorem transfers_commute {p : System} (h : SystemReachable p) {command other : TransferCommand}
    (hkeys : command.idempotencyKey ≠ other.idempotencyKey)
    {first second first' second' : TransferDraws}
    (hfresh : FreshDraws p.shared.issued first second)
    (hfresh' : FreshDraws p.shared.issued first' second') :
    let there := p.shared.atRest.inTurn (.transfer first command) (.transfer second other)
    let back := p.shared.atRest.inTurn (.transfer second' other) (.transfer first' command)
    (command.Apart other → AlikeOutcome there.first back.second ∧
      AlikeOutcome there.second back.first ∧ p.shared.db.AlikeSince there.db back.db) ∧
    (there.first.isOk → there.second.isOk → back.first.isOk → back.second.isOk →
      ∀ id, there.db.standing id = back.db.standing id) := by
  have hunused := h.unusedDraws hfresh
  have hunused' := h.unusedDraws hfresh'
  have hwhole : p.shared.atRest.db.Whole := h.whole
  have hidle := p.shared.atRest_idle
  intro there back
  have hthere := Server.inTurn_act hidle hwhole command other hunused
  have hback := Server.inTurn_act hidle hwhole other command hunused'.symm
  simp only [there, back, hthere, hback]
  constructor
  · intro happart
    obtain ⟨houtcome, houtcome', δ, δ', hadds, hadds', hsame⟩ :=
      TransferCommand.act_commute hwhole hkeys happart hunused hunused'
    exact ⟨houtcome, houtcome', hadds.alikeSince hadds' hsame⟩
  · intro hok hok₂ hok' hok₂'
    exact TransferCommand.act_balances hwhole hkeys hunused hunused' hok hok₂ hok' hok₂'

namespace Sample

/-- Transfer 30 EUR from account 3 to account 4. -/
def elsewhere : TransferCommand := ⟨3, 4, .finite false 30 0, "EUR", "elsewhere"⟩

theorem openedWide_fresh : FreshDraws openedWide.shared.issued (draws 5) (draws 6) := by
  rw [openedWide_issued]
  exact ⟨by decide, by decide, by decide⟩

theorem openedWide_fresh' : FreshDraws openedWide.shared.issued (draws 7) (draws 8) := by
  rw [openedWide_issued]
  exact ⟨by decide, by decide, by decide⟩

end Sample

/-- From 1 to 2 and from 3 to 4, and then from 1 to 2 and from 2 to 1. -/
theorem transfers_commute_sample :
    (let there := Sample.openedWide.shared.atRest.inTurn
        (.transfer (Sample.draws 5) Sample.command) (.transfer (Sample.draws 6) Sample.elsewhere)
      let back := Sample.openedWide.shared.atRest.inTurn
        (.transfer (Sample.draws 8) Sample.elsewhere) (.transfer (Sample.draws 7) Sample.command)
      AlikeOutcome there.first back.second ∧ AlikeOutcome there.second back.first ∧
        Sample.openedWide.shared.db.AlikeSince there.db back.db) ∧
    (let there := Sample.openedWide.shared.atRest.inTurn
        (.transfer (Sample.draws 5) Sample.command) (.transfer (Sample.draws 6) Sample.reply)
      let back := Sample.openedWide.shared.atRest.inTurn
        (.transfer (Sample.draws 8) Sample.reply) (.transfer (Sample.draws 7) Sample.command)
      ∀ id, there.db.standing id = back.db.standing id) := by
  have hkeys : Sample.command.idempotencyKey ≠ Sample.elsewhere.idempotencyKey := by decide +kernel
  have hkeys' : Sample.command.idempotencyKey ≠ Sample.reply.idempotencyKey := by decide +kernel
  have happart : Sample.command.Apart Sample.elsewhere := by decide +kernel
  have hcommute := transfers_commute Sample.openedWide_reachable hkeys Sample.openedWide_fresh
    Sample.openedWide_fresh'
  have hcommute' := transfers_commute Sample.openedWide_reachable hkeys' Sample.openedWide_fresh
    Sample.openedWide_fresh'
  exact ⟨hcommute.1 happart,
    hcommute'.2 (by decide +kernel) (by decide +kernel) (by decide +kernel) (by decide +kernel)⟩

/-- With the same draws in both orders nothing differs but the order of the new rows. -/
theorem transfers_exchange {p : System} (h : SystemReachable p) {command other : TransferCommand}
    (hkeys : command.idempotencyKey ≠ other.idempotencyKey) (happart : command.Apart other)
    {first second : TransferDraws} (hfresh : FreshDraws p.shared.issued first second) :
    let there := p.shared.atRest.inTurn (.transfer first command) (.transfer second other)
    let back := p.shared.atRest.inTurn (.transfer second other) (.transfer first command)
    there.first = back.second ∧ there.second = back.first ∧
      (∀ id, there.db.standing id = back.db.standing id) ∧
      there.db.transactions.Perm back.db.transactions ∧ there.db.outbox.Perm back.db.outbox := by
  have hunused := h.unusedDraws hfresh
  have hwhole : p.shared.atRest.db.Whole := h.whole
  have hidle := p.shared.atRest_idle
  intro there back
  have hthere := Server.inTurn_act hidle hwhole command other hunused
  have hback := Server.inTurn_act hidle hwhole other command hunused.symm
  simp only [there, back, hthere, hback]
  obtain ⟨houtcome, houtcome', δ, hadds, hadds'⟩ :=
    TransferCommand.act_exchange hwhole hkeys happart hunused
  refine ⟨houtcome, houtcome', ?_, ?_, ?_⟩
  · intro id
    rw [hadds.accounts, hadds'.accounts]
  · rw [← Multiset.coe_eq_coe, hadds.transactions, hadds'.transactions]
  · rw [← Multiset.coe_eq_coe, hadds.outbox, hadds'.outbox]

end BankingTransactions
