import GroovyViews.CommandLine
import GroovyViews.Conversion
import GroovyViews.Conversion.Error
import GroovyViews.Disk
import GroovyViews.Disk.Path
import GroovyViews.Disk.Save
import GroovyViews.Draft
import GroovyViews.Emission
import GroovyViews.Groovy.Expression
import GroovyViews.Groovy.Statement
import GroovyViews.Notice
import GroovyViews.Options
import GroovyViews.PrefixTable
import GroovyViews.Proofs.Account
import GroovyViews.Proofs.Agreement
import GroovyViews.Proofs.Alternatives
import GroovyViews.Proofs.Arguments
import GroovyViews.Proofs.Backslashes
import GroovyViews.Proofs.Braces
import GroovyViews.Proofs.Capacity
import GroovyViews.Proofs.Capture
import GroovyViews.Proofs.ControlFlow
import GroovyViews.Proofs.ControlPrefix
import GroovyViews.Proofs.Converted
import GroovyViews.Proofs.Declarations
import GroovyViews.Proofs.Decoding
import GroovyViews.Proofs.Destinations
import GroovyViews.Proofs.Ending
import GroovyViews.Proofs.Essence
import GroovyViews.Proofs.Heads
import GroovyViews.Proofs.Indexing
import GroovyViews.Proofs.Keys
import GroovyViews.Proofs.Layout
import GroovyViews.Proofs.Literals
import GroovyViews.Proofs.Masking
import GroovyViews.Proofs.Matching
import GroovyViews.Proofs.Meaning
import GroovyViews.Proofs.Naming
import GroovyViews.Proofs.Nesting
import GroovyViews.Proofs.OneToOne
import GroovyViews.Proofs.Opening
import GroovyViews.Proofs.Phrases
import GroovyViews.Proofs.Pieces
import GroovyViews.Proofs.Policies
import GroovyViews.Proofs.Qualifiers
import GroovyViews.Proofs.Quotation
import GroovyViews.Proofs.Reading
import GroovyViews.Proofs.Resolution
import GroovyViews.Proofs.RoundTrip
import GroovyViews.Proofs.Running
import GroovyViews.Proofs.Saving
import GroovyViews.Proofs.Scoping
import GroovyViews.Proofs.Script
import GroovyViews.Proofs.Sequence
import GroovyViews.Proofs.Settings
import GroovyViews.Proofs.Siblings
import GroovyViews.Proofs.SingleLine
import GroovyViews.Proofs.Spelling
import GroovyViews.Proofs.Transcript
import GroovyViews.Proofs.Unescaping
import GroovyViews.Proofs.Walk
import GroovyViews.Proofs.Warnings
import GroovyViews.Proofs.Written
import GroovyViews.Role
import GroovyViews.Sink
import GroovyViews.Text
import GroovyViews.Text.Extender
import GroovyViews.Text.Quoted
import GroovyViews.Text.Unprintable
import GroovyViews.Traced
import GroovyViews.View
import GroovyViews.View.Error
import GroovyViews.Xml.Char
import GroovyViews.Xml.Document
import GroovyViews.Xml.Event
import GroovyViews.Xml.Event.Content
import GroovyViews.Xml.Event.Prolog
import GroovyViews.Xml.Event.Reference
import GroovyViews.Xml.Fault
import GroovyViews.Xml.Name
import GroovyViews.Xml.Node
import GroovyViews.Xml.Node.Assembly
import GroovyViews.Xml.Position
import GroovyViews.Xml.Scope
