import MergeDecoration.Json.Writer
import MergeDecoration.Main
import MergeDecoration.Platform
import MergeDecoration.Proofs.Decoration.Duplicates
import MergeDecoration.Proofs.Decoration.Escape
import MergeDecoration.Proofs.Decoration.Foreign
import MergeDecoration.Proofs.Decoration.Interleaving
import MergeDecoration.Proofs.Decoration.Neighbours
import MergeDecoration.Proofs.Decoration.Preview
import MergeDecoration.Proofs.Decoration.Settled
import MergeDecoration.Proofs.Decoration.Succession
import MergeDecoration.Proofs.Note.EmbeddedLinks
import MergeDecoration.Proofs.Decoration.Explanations
import MergeDecoration.Proofs.Decoration.Order
import MergeDecoration.Proofs.Decoration.Gate
import MergeDecoration.Proofs.Program.Success
import MergeDecoration.Proofs.Decoration.Passes
import MergeDecoration.Proofs.Decoration.Creation
import MergeDecoration.Proofs.Decoration.Closing
import MergeDecoration.Proofs.Decoration.SummaryUpdate
import MergeDecoration.Proofs.Decoration.Reply
import MergeDecoration.Proofs.Decoration.AfterReply
import MergeDecoration.Proofs.Decoration.ClosedIssues
import MergeDecoration.Proofs.Analysis.Grammar
import MergeDecoration.Proofs.Json.Depth
import MergeDecoration.Proofs.Gitlab.Request
import MergeDecoration.Proofs.Gitlab.Pages
import MergeDecoration.Proofs.Gitlab.Ending
import MergeDecoration.Proofs.Remote.Instance
import MergeDecoration.Proofs.Note.Counts
import MergeDecoration.Proofs.Host.Action
import MergeDecoration.Proofs.Config.Load
import MergeDecoration.Proofs.Token.Resolution
import MergeDecoration.Proofs.CommandLine.Override
import MergeDecoration.Proofs.Gitlab.Sent
import MergeDecoration.Proofs.CommandLine.Conversation
import MergeDecoration.Proofs.CommandLine.Session
import MergeDecoration.Proofs.CommandLine.Dialogue
