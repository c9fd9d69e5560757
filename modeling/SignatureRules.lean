import SignatureRules.CommandLine.Report
import SignatureRules.Main
import SignatureRules.Proofs.Lexemes
import SignatureRules.Proofs.LexicalGrammar
import SignatureRules.Proofs.NextToken
import SignatureRules.Proofs.Tokenization
import SignatureRules.Proofs.ParserRun
import SignatureRules.Proofs.BraceNesting
import SignatureRules.Proofs.RuleGrammar
import SignatureRules.Proofs.AcceptedRules
import SignatureRules.Proofs.ParsedRules
import SignatureRules.Proofs.MatchingBrace
import SignatureRules.Proofs.Completion
import SignatureRules.Proofs.ViablePrefix
import SignatureRules.Proofs.OrderedTables
import SignatureRules.Proofs.WellFormedRules
import SignatureRules.Proofs.ReaderLedger
import SignatureRules.Proofs.WrittenRules
import SignatureRules.Proofs.TokenBoundaries
import SignatureRules.Proofs.FinalErrors
import SignatureRules.Proofs.ConditionSettings
import SignatureRules.Proofs.TruncatedSources
import SignatureRules.Proofs.LexerSessions
import SignatureRules.Proofs.TriviaContents
import SignatureRules.Proofs.StoredText
import SignatureRules.Proofs.CheckedLexer
import SignatureRules.Proofs.CheckedRuns
import SignatureRules.Proofs.FileRuns
import SignatureRules.Proofs.SkippedConditions
import SignatureRules.Proofs.NeutralComments
import SignatureRules.Proofs.ListedRules
import SignatureRules.Proofs.AppendedText
import SignatureRules.Proofs.LetterCase
import SignatureRules.Proofs.RecasedRules
import SignatureRules.Proofs.CursorSessions
import SignatureRules.Proofs.QuotedText
import SignatureRules.Proofs.TokenListings
import SignatureRules.Proofs.ErrorMessages
import SignatureRules.Proofs.CommentBodies
