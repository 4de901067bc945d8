import RaidTimeline.Main
import RaidTimeline.Proofs.Layout
import RaidTimeline.Proofs.Concatenation
import RaidTimeline.Proofs.Idempotence
import RaidTimeline.Proofs.Progress
import RaidTimeline.Proofs.Lookahead
import RaidTimeline.Proofs.Nesting
import RaidTimeline.Proofs.JsonScalars
import RaidTimeline.Proofs.Octets
import RaidTimeline.Proofs.TreeRoundTrip
import RaidTimeline.Proofs.Sessions
import RaidTimeline.Proofs.Blocks
import RaidTimeline.Proofs.StoredTexts
import RaidTimeline.Proofs.CanonicalParts
import RaidTimeline.Proofs.Unambiguity
import RaidTimeline.Proofs.Commands
import RaidTimeline.Proofs.WordSets
import RaidTimeline.Proofs.Fallback
import RaidTimeline.Proofs.PrintedStrings
import RaidTimeline.Proofs.StringLiterals
import RaidTimeline.Proofs.Patterns
import RaidTimeline.Proofs.PrintedNumbers
import RaidTimeline.Proofs.RegexLiterals
import RaidTimeline.Proofs.Counting
import RaidTimeline.Proofs.Faithfulness
import RaidTimeline.Proofs.Unsupported
import RaidTimeline.Proofs.Tables
import RaidTimeline.Proofs.Views
import RaidTimeline.Proofs.Lines
