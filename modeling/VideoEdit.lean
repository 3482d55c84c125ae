import VideoEdit.Proofs.Edit.CacheHistory
import VideoEdit.Main
import VideoEdit.Proofs.Invocation.Reading
import VideoEdit.Proofs.Prompt.Clauses
import VideoEdit.Proofs.Prompt.Account
import VideoEdit.Proofs.Pattern.Language
import VideoEdit.Proofs.Text.CharacterClass
import VideoEdit.Proofs.Pattern.Overlap
import VideoEdit.Proofs.Prompt.Sharing
import VideoEdit.Proofs.Number.Rounding
import VideoEdit.Proofs.Number.Decimal
import VideoEdit.Proofs.Invocation.Multiplier
import VideoEdit.Proofs.Text.Fields
import VideoEdit.Proofs.Edit.PrintedTempo
import VideoEdit.Proofs.Invocation.FilterText
import VideoEdit.Proofs.Invocation.Pace
import VideoEdit.Proofs.Prompt.Window
import VideoEdit.Proofs.Engine.Rendering
import VideoEdit.Proofs.Command.Work
import VideoEdit.Proofs.Json
import VideoEdit.Proofs.Files.Extension
import VideoEdit.Proofs.Files.Beside
import VideoEdit.Proofs.Command.Outcome
import VideoEdit.Proofs.Command.Run
import VideoEdit.Proofs.Command.Preservation
import VideoEdit.Proofs.Invocation.Separation
import VideoEdit.Proofs.Invocation.Times
import VideoEdit.Proofs.Invocation.MultiplierText
import VideoEdit.Proofs.Text.Quotes
import VideoEdit.Proofs.Invocation.Chains
import VideoEdit.Proofs.Invocation.Effects
import VideoEdit.Proofs.Text.LetterCase
import VideoEdit.Proofs.Prompt.LetterCase
import VideoEdit.Proofs.Number.Nearest
import VideoEdit.Proofs.Number.ShortText
import VideoEdit.Proofs.Edit.Description
import VideoEdit.Proofs.Prompt.Direction
import VideoEdit.Proofs.Prompt.TimeNumeral
import VideoEdit.Proofs.Prompt.Range
import VideoEdit.Proofs.Prompt.Bound
import VideoEdit.Proofs.Prompt.Format
import VideoEdit.Proofs.Prompt.NumberRange
import VideoEdit.Proofs.Prompt.SpeedForm
import VideoEdit.Proofs.Prompt.SpeedNumber
import VideoEdit.Proofs.Config.Partial
