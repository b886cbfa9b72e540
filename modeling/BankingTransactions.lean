import BankingTransactions.Reconciliation
import BankingTransactions.Retries
import BankingTransactions.AccountLedger
import BankingTransactions.TransactionTable
import BankingTransactions.RowDeadlocks
import BankingTransactions.FailureAtomicity
import BankingTransactions.LockConflicts
import BankingTransactions.RollbackFlags
import BankingTransactions.EventDelivery
import BankingTransactions.MapperRoundTrips
import BankingTransactions.OutboxAttribution
import BankingTransactions.ColumnCapacity
import BankingTransactions.MoneyArithmetic
import BankingTransactions.LockAccounting
import BankingTransactions.AccessControl
import BankingTransactions.LockExpiry
import BankingTransactions.FaithfulDouble
import BankingTransactions.DuplicateRequests
import BankingTransactions.LockWaiting
import BankingTransactions.AggregateEquality
import BankingTransactions.IndependentTransfers
import BankingTransactions.ReturnedTransfers
import BankingTransactions.Linearizability
import BankingTransactions.EventPayloads
import BankingTransactions.LastMessages
import BankingTransactions.HttpServer
import BankingTransactions.UndisturbedRuns
