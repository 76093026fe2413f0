import LibOsdp.Base.Result
import LibOsdp.Base.Buffer
import LibOsdp.Base.ByteEnum
import LibOsdp.Error
import LibOsdp.Codec.Duration
import LibOsdp.Codec.Scan
import LibOsdp.Sys.Command
import LibOsdp.Sys.Event
import LibOsdp.Codec.Payload
import LibOsdp.Codec.Led
import LibOsdp.Codec.Output
import LibOsdp.Codec.Setup
import LibOsdp.Codec.Status
import LibOsdp.Codec.Bio
import LibOsdp.Codec.Piv
import LibOsdp.Codec.Trs
import LibOsdp.Codec.Reading
import LibOsdp.Codec.TrsReply
import LibOsdp.Codec.PdId
import LibOsdp.Codec.Notification
import LibOsdp.Base.Heap
import LibOsdp.Codec.Capability
import LibOsdp.Codec.PdInfo
import LibOsdp.Codec.Command
import LibOsdp.Codec.CommandGrammar
import LibOsdp.Codec.CommandDomain
import LibOsdp.Codec.CommandResend
import LibOsdp.Codec.Event
import LibOsdp.Codec.EventGrammar
import LibOsdp.Codec.EventDomain
import LibOsdp.Codec.EventResend
import LibOsdp.Base.Lts
import LibOsdp.Base.Fifo
import LibOsdp.Base.Loan
import LibOsdp.Ctx.Queue
import LibOsdp.Ctx.Slot
import LibOsdp.Ctx.State
import LibOsdp.Ctx.Step
import LibOsdp.Ctx.Rules
import LibOsdp.Ctx.Busy
import LibOsdp.Ctx.Stack
import LibOsdp.Ctx.Ownership
import LibOsdp.Ctx.Wake
import LibOsdp.Ctx.Engine
import LibOsdp.Ctx.Promise
import LibOsdp.Ctx.Routing
import LibOsdp.Ctx.Reply
import LibOsdp.Ctx.Kinds
import LibOsdp.Ctx.Cancel
import LibOsdp.Ctx.Drain
import LibOsdp.Ctx.Stream
import LibOsdp.Ctx.Handler
import LibOsdp.Ctx.Refusal
import LibOsdp.Ctx.Registration
import LibOsdp.Base.Text
import LibOsdp.Base.Chars
import LibOsdp.Base.Loop
import LibOsdp.Base.Script
import LibOsdp.Release.Version
import LibOsdp.Changelog.Parser
import LibOsdp.Changelog.Layout
import LibOsdp.Release.Repo
import LibOsdp.Release.Tool
import LibOsdp.Release.Manifest
import LibOsdp.Release.Commands
import LibOsdp.Release.Effects
import LibOsdp.Release.Publish
import LibOsdp.Release.Pin
import LibOsdp.Release.Checks
import LibOsdp.Release.Staging
import LibOsdp.Base.Lines
import LibOsdp.Changelog.Normal
import LibOsdp.Changelog.Render
import LibOsdp.Changelog.Files
import LibOsdp.Changelog.Dated
import LibOsdp.Release.Validation
import LibOsdp.Release.Failure
import LibOsdp.Release.Rerun
import LibOsdp.Release.Gate
import LibOsdp.Release.Published
import LibOsdp.Release.Ci
import LibOsdp.Release.Hook
import LibOsdp.Release.Cycle
import LibOsdp.Base.Fields
import LibOsdp.Release.Signature
import LibOsdp.Base.Journal
import LibOsdp.Release.Journal
import LibOsdp.Release.Settled
import LibOsdp.Base.Arena
import LibOsdp.Ctx.Life
import LibOsdp.Base.BitMask
import LibOsdp.Ctx.Bus
import LibOsdp.Base.Object
import LibOsdp.Base.Potential
import LibOsdp.Ctx.Rest
import LibOsdp.Ctx.Course
import LibOsdp.Ctx.Trampoline
import LibOsdp.Codec.NotificationGrammar
