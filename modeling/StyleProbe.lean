import StyleProbe.Main
import StyleProbe.Session
import StyleProbe.Surface.Scripted
import StyleProbe.Css.Token.Cursor
import StyleProbe.Proofs.Session.Transparency
import StyleProbe.Proofs.Css.Component.Balance
import StyleProbe.Proofs.Css.Token.Named
import StyleProbe.Proofs.Profile.Stored
import StyleProbe.Proofs.Profile.Agreement
import StyleProbe.Proofs.Css.Stylesheet.Segment
import StyleProbe.Proofs.Css.Stylesheet.WellFormed
import StyleProbe.Proofs.Css.Stylesheet.Grouping
import StyleProbe.Proofs.Css.Component.Descent
import StyleProbe.Proofs.Css.Component.Lossless
import StyleProbe.Proofs.Text.CamelCase
import StyleProbe.Proofs.Property.StyleKey
import StyleProbe.Proofs.Property.OrdinaryName
import StyleProbe.Proofs.Profile.Recognition
import StyleProbe.Proofs.Profile.OrdinaryNames
import StyleProbe.Proofs.Profile.OwnNames
import StyleProbe.Proofs.Css.Token.Lead
import StyleProbe.Proofs.Profile.PrefixedForms
import StyleProbe.Proofs.Css.Component.Recovery
import StyleProbe.Proofs.Css.Stylesheet.Recovery
import StyleProbe.Proofs.Session.Failure
import StyleProbe.Proofs.Audit.Account
import StyleProbe.Proofs.Session.Reachable
import StyleProbe.Proofs.Property.ResolvedName
import StyleProbe.Proofs.Audit.Verdict
import StyleProbe.Proofs.Profile.SharedKeys
import StyleProbe.Proofs.Css.Token.Lexed
import StyleProbe.Proofs.Text.SmallLetters
import StyleProbe.Proofs.Audit.Case
import StyleProbe.Proofs.Audit.Selector
import StyleProbe.Proofs.Css.Component.Lead
import StyleProbe.Proofs.Profile.Reprint
import StyleProbe.Proofs.Cache.Lookup
import StyleProbe.Proofs.Session.Lookups
import StyleProbe.Proofs.Session.Accounting
import StyleProbe.Proofs.Css.Stylesheet.Statement
import StyleProbe.Proofs.Profile.Capability
import StyleProbe.Proofs.Css.Token.Slash
import StyleProbe.Proofs.Css.Token.Gaps
import StyleProbe.Proofs.Css.Component.Spacing
import StyleProbe.Proofs.Css.Stylesheet.Important
import StyleProbe.Proofs.Script.Stickiness
import StyleProbe.Proofs.Profile.ProbeMemory
import StyleProbe.Proofs.Css.Color.Arguments
import StyleProbe.Proofs.Css.Color.Reread
import StyleProbe.Proofs.Text.ByteOrder
import StyleProbe.Proofs.Profile.VendorNames
import StyleProbe.Proofs.Profile.Validation
import StyleProbe.Proofs.Profile.BlankValues
import StyleProbe.Proofs.Profile.StoredAgain
import StyleProbe.Proofs.Text.Lines
import StyleProbe.Proofs.Css.OneLine
import StyleProbe.Proofs.Audit.Lines
import StyleProbe.Proofs.Css.Token.Cursor
import StyleProbe.Proofs.Css.Token.Progress
import StyleProbe.Proofs.Css.Token.Numeral
