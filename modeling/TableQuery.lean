import TableQuery.Condition.Reader
import TableQuery.Config
import TableQuery.Connection
import TableQuery.Json.Reader
import TableQuery.Repository.Write
import TableQuery.Shop
import TableQuery.Proofs.CountedRows
import TableQuery.Proofs.FailedWrites
import TableQuery.Proofs.FilteredList
import TableQuery.Proofs.KeyedFind
import TableQuery.Proofs.LoadedParts
import TableQuery.Proofs.OptionKeys
import TableQuery.Proofs.OwnPlaceholders
import TableQuery.Proofs.OwnRelatedRows
import TableQuery.Proofs.PagedRows
import TableQuery.Proofs.PlainProjection
import TableQuery.Proofs.UpdateWrites
import TableQuery.Proofs.LoadedAlone
import TableQuery.Proofs.OrderedRows
import TableQuery.Proofs.UpsertedRows
import TableQuery.Proofs.UpsertWrites
import TableQuery.Proofs.SameSchemas
import TableQuery.Proofs.FirstMatch
import TableQuery.Proofs.ReadBack
import TableQuery.Proofs.CreatedRow
import TableQuery.Proofs.RepeatedWrites
import TableQuery.Proofs.HarmlessStatements
import TableQuery.Proofs.ValueFreeText
import TableQuery.Proofs.UpdateEffect
import TableQuery.Proofs.IntegerChanges
import TableQuery.Proofs.SearchedText
import TableQuery.Proofs.RelatedTests
import TableQuery.Proofs.SpelledKeys
import TableQuery.Proofs.InsertedTogether
import TableQuery.Proofs.TerminalRows
import TableQuery.Proofs.EqualRows
import TableQuery.Proofs.CreationEffect
import TableQuery.Proofs.WireForm
import TableQuery.Proofs.FilledTimes
import TableQuery.Proofs.PluckedValues
import TableQuery.Proofs.AbsentValues
import TableQuery.Proofs.PaddedNumbers
import TableQuery.Proofs.DocumentedNames
import TableQuery.Proofs.WholeDays
import TableQuery.Proofs.OptionForms
import TableQuery.Proofs.FollowedPages
import TableQuery.Proofs.LoadedLimits
import TableQuery.Proofs.WholePage
