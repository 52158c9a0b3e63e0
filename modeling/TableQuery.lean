import TableQuery.Proofs.Caching
import TableQuery.Proofs.DirectoryTables
import TableQuery.Proofs.BorrowedDirectory
import TableQuery.Proofs.JoinedColumns
import TableQuery.Proofs.JoinKinds
import TableQuery.Proofs.CombinedConditions
import TableQuery.Proofs.ScalarMembership
import TableQuery.Proofs.WholeTable
import TableQuery.Proofs.TargetAliases
import TableQuery.Proofs.QualifiedGroups
import TableQuery.Proofs.SharedNames
import TableQuery.Proofs.RowlessTables
import TableQuery.Proofs.InsertedClauses
import TableQuery.Proofs.OrderedAnswers
import TableQuery.Proofs.CreatedTables
import TableQuery.Proofs.Operands
import TableQuery.Proofs.RecentTables
