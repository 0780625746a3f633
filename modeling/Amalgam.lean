import Amalgam.Main
import Amalgam.Proofs.FreshNames
import Amalgam.Proofs.Identifiers
import Amalgam.Proofs.StatementWords
import Amalgam.Proofs.Agenda
import Amalgam.Proofs.TaskEffects
import Amalgam.Proofs.Namespaces
import Amalgam.Proofs.DefinitionUse
import Amalgam.Proofs.Growth
import Amalgam.Proofs.Resolution
import Amalgam.Proofs.EmissionOrder
import Amalgam.Proofs.FaithfulNames
import Amalgam.Proofs.DefinitionOrder
import Amalgam.Proofs.Extension
import Amalgam.Proofs.ScanEnds
import Amalgam.Proofs.CompleteImports
import Amalgam.Proofs.Alignment
import Amalgam.Proofs.FormattedStrings
import Amalgam.Proofs.RenamedLines
import Amalgam.Proofs.WalkedPaths
import Amalgam.Proofs.CycleBreaking
import Amalgam.Proofs.CycleReports
import Amalgam.Proofs.SourceLines
import Amalgam.Proofs.StatementLines
import Amalgam.Proofs.ExternalConflicts
import Amalgam.Proofs.PayloadRoundTrip
import Amalgam.Proofs.FutureDirectives
import Amalgam.Proofs.RenamedOccurrences
import Amalgam.Proofs.ReplacementFields
import Amalgam.Proofs.StringLiterals
import Amalgam.Proofs.TokenPlaces
import Amalgam.Proofs.Segmentation
import Amalgam.Proofs.StringText
import Amalgam.Proofs.TableKeys
import Amalgam.Proofs.NameEdges
import Amalgam.Proofs.DeclaredNames
import Amalgam.Proofs.RenamedDeclarations
import Amalgam.Proofs.ImportGrammar
import Amalgam.Proofs.WrittenWords
import Amalgam.Proofs.RenderedImports
import Amalgam.Proofs.SpreadImports
import Amalgam.Proofs.DeclarationGrammar
import Amalgam.Proofs.SearchPrecedence
import Amalgam.Proofs.IdentifierAssignment
import Amalgam.Proofs.SymbolViews
import Amalgam.Proofs.DottedImports
import Amalgam.Proofs.RecursiveOrder
import Amalgam.Proofs.NearestSettings
import Amalgam.Proofs.ClassBodies
import Amalgam.Proofs.ClosingQuotes
import Amalgam.Proofs.FieldBytes
import Amalgam.Proofs.HostedSessions
import Amalgam.Proofs.NumberedLines
