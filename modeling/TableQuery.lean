import TableQuery.Catalog.Listing
import TableQuery.Main
import TableQuery.Proofs.Answers.ExecutionStages
import TableQuery.Proofs.Answers.Projection
import TableQuery.Proofs.Answers.RequestedColumns
import TableQuery.Proofs.Answers.SharedCatalogs
import TableQuery.Proofs.Answers.Traversals
import TableQuery.Proofs.Answers.WrittenStatements
import TableQuery.Proofs.Catalogs.DocumentLookups
import TableQuery.Proofs.Catalogs.Insertions
import TableQuery.Proofs.Catalogs.Qualification
import TableQuery.Proofs.Catalogs.ResolvedPaths
import TableQuery.Proofs.Catalogs.SettledReferences
import TableQuery.Proofs.Completion.AcceptedColumns
import TableQuery.Proofs.Completion.CursorPlaces
import TableQuery.Proofs.Completion.CursorSuggestions
import TableQuery.Proofs.Completion.NarrowedSuggestions
import TableQuery.Proofs.Completion.OpenNames
import TableQuery.Proofs.Completion.ReachablePaths
import TableQuery.Proofs.Lexing.ItemSpans
import TableQuery.Proofs.Lexing.LayoutRecognition
import TableQuery.Proofs.Lexing.Layouts
import TableQuery.Proofs.Lexing.LexemeForms
import TableQuery.Proofs.Lexing.LexemePrefixes
import TableQuery.Proofs.Lexing.LexerSteps
import TableQuery.Proofs.Lexing.MergedSpans
import TableQuery.Proofs.Lexing.QuotePairs
import TableQuery.Proofs.Lexing.SeparatedTexts
import TableQuery.Proofs.Lexing.TextPlaces
import TableQuery.Proofs.Reading.InterruptedReading
import TableQuery.Proofs.Reading.NodeSpans
import TableQuery.Proofs.Reading.ReadingProgress
import TableQuery.Proofs.Reading.ReadingSteps
import TableQuery.Proofs.Reading.SpelledReferences
import TableQuery.Proofs.Reading.StatementGrammar
import TableQuery.Proofs.Reading.StoppedReferences
import TableQuery.Proofs.Reading.GrammarPoints
import TableQuery.Proofs.Reading.ReadingEndings
import TableQuery.Proofs.Answers.TokenAnswers
import TableQuery.Proofs.Diagnostics.Origins
import TableQuery.Proofs.Reading.EarliestErrors
import TableQuery.Proofs.Diagnostics.UnreachableFaults
import TableQuery.Proofs.Lexing.MarkedText
import TableQuery.Proofs.Diagnostics.UnderlinedText
import TableQuery.Proofs.Answers.MovedAnswers
import TableQuery.Proofs.Diagnostics.LayoutIndependence
import TableQuery.Proofs.Lexing.InterleavedCalls
import TableQuery.Proofs.Catalogs.DocumentListings
import TableQuery.Proofs.Commands.TracedRuns
import TableQuery.Proofs.Documents.NestedValues
import TableQuery.Proofs.Documents.ReadScalars
import TableQuery.Proofs.Documents.ReadElements
import TableQuery.Proofs.Documents.ReadValues
import TableQuery.Proofs.Documents.SavedCatalogs
import TableQuery.Proofs.Lexing.CoveringSpans
import TableQuery.Proofs.Catalogs.SeenColumns
import TableQuery.Proofs.Documents.AcceptedDocuments
import TableQuery.Proofs.Reading.DrawnEntries
import TableQuery.Proofs.Reading.DrawnTrees
import TableQuery.Proofs.Lexing.BuiltTokens
import TableQuery.Proofs.Documents.HeldValues
import TableQuery.Proofs.Documents.WrittenTexts
import TableQuery.Proofs.Documents.LibraryLaws
import TableQuery.Proofs.Documents.MemberwiseData
import TableQuery.Proofs.Documents.StandardLibrary
