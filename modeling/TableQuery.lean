import TableQuery.Number.Shortest
import TableQuery.Text.Word
import TableQuery.Text.Integer
import TableQuery.Text.Quoted
import TableQuery.Value.Equality
import TableQuery.Value.Printer
import TableQuery.Row
import TableQuery.Value.Integer
import TableQuery.Table
import TableQuery.Sql.Printer
import TableQuery.Query.Printer
import TableQuery.Query.Equality
import TableQuery.Query.Filter
import TableQuery.Entity
import TableQuery.Updater
import TableQuery.Pagination
import TableQuery.RawSql.Binding
import TableQuery.Handle.Cache
import TableQuery.Executor
import TableQuery.Catalog
import TableQuery.Column.Shown
import TableQuery.Session
import TableQuery.Handle.BatchWrite
import TableQuery.Handle.Raw
import TableQuery.Settings.Environment
import TableQuery.Settings.Engine
import TableQuery.Query.Operators
import TableQuery.Proofs.Handle.Guarded
import TableQuery.Proofs.Query.Pruning
import TableQuery.Proofs.Query.Meaning
import TableQuery.Proofs.RawSql.Positional
import TableQuery.Proofs.Handle.Identity
import TableQuery.Proofs.Handle.Sending
import TableQuery.Proofs.Handle.Statements
import TableQuery.Proofs.RawSql.Places
import TableQuery.Proofs.Sql.Marks
import TableQuery.Proofs.Query.Operands
import TableQuery.Proofs.Sql.Assignments
import TableQuery.Proofs.Handle.Batches
import TableQuery.Proofs.Handle.Upserting
import TableQuery.Proofs.Handle.Mirroring
import TableQuery.Proofs.Handle.Sharding
import TableQuery.Proofs.Handle.Plans
import TableQuery.Proofs.Records
import TableQuery.Proofs.Handle.Chunking
import TableQuery.Proofs.Handle.BatchSaving
import TableQuery.Proofs.Sql.Writing
import TableQuery.Proofs.Handle.Resaving
import TableQuery.Proofs.RawSql.Neighbours
import TableQuery.Proofs.RawSql.Named
import TableQuery.Proofs.Handle.Creating
import TableQuery.Proofs.Handle.Pinning
import TableQuery.Proofs.Query.Grouping
import TableQuery.Proofs.Query.Shorthands
import TableQuery.Proofs.Sql.Taken
import TableQuery.Proofs.Handle.Touching
import TableQuery.Proofs.Handle.Uniform
import TableQuery.Proofs.Handle.Caching
import TableQuery.Proofs.Sql.Leading
import TableQuery.Proofs.Handle.Resolving
import TableQuery.Proofs.Sql.Paging
import TableQuery.Proofs.Handle.Paginating
import TableQuery.Proofs.Query.Binding
import TableQuery.Proofs.RawSql.Escaping
