import LayeredSettings.Session
import LayeredSettings.Schema.Toml
import LayeredSettings.Json.Reader
import LayeredSettings.Proofs.Dict
import LayeredSettings.Proofs.Merge
import LayeredSettings.Proofs.Segments
import LayeredSettings.Proofs.Refusals
import LayeredSettings.Proofs.Run
import LayeredSettings.Proofs.Reading
import LayeredSettings.Proofs.Identified
import LayeredSettings.Proofs.Growth
import LayeredSettings.Proofs.Steps
import LayeredSettings.Proofs.Memo
import LayeredSettings.Proofs.Levels
import LayeredSettings.Proofs.Reachable
import LayeredSettings.Proofs.Chain
import LayeredSettings.Proofs.Eager
import LayeredSettings.Proofs.Stability
import LayeredSettings.Proofs.Keys
import LayeredSettings.Proofs.Instances
import LayeredSettings.Proofs.Tidy
import LayeredSettings.Proofs.Sharing
import LayeredSettings.Proofs.Overriding
import LayeredSettings.Proofs.Footprint
import LayeredSettings.Proofs.Lifetime
import LayeredSettings.Proofs.Inheritance
import LayeredSettings.Proofs.Supply
import LayeredSettings.Proofs.Enclosing
import LayeredSettings.Proofs.Precedence
import LayeredSettings.Proofs.Image
import LayeredSettings.Proofs.Depiction
import LayeredSettings.Proofs.Tree
import LayeredSettings.Proofs.Telling
import LayeredSettings.Proofs.Branching
import LayeredSettings.Proofs.Linking
import LayeredSettings.Proofs.Answering
import LayeredSettings.Proofs.Agreement
import LayeredSettings.Proofs.Likeness
import LayeredSettings.Proofs.Parallel
import LayeredSettings.Proofs.Stages
import LayeredSettings.Proofs.Lockstep
import LayeredSettings.Proofs.Written
import LayeredSettings.Proofs.Counterparts
import LayeredSettings.Proofs.Cutoff
import LayeredSettings.Proofs.Shadowing
import LayeredSettings.Proofs.Failing
import LayeredSettings.Proofs.Handles
import LayeredSettings.Proofs.Guards
import LayeredSettings.Proofs.Standing
import LayeredSettings.Proofs.Requests
import LayeredSettings.Proofs.Scopes
import LayeredSettings.Proofs.LinkedLookup
import LayeredSettings.Proofs.Declared
import LayeredSettings.Proofs.Protection
import LayeredSettings.Proofs.Closure
import LayeredSettings.Proofs.Carrying
import LayeredSettings.Proofs.Firm
import LayeredSettings.Proofs.Absence
import LayeredSettings.Proofs.Dialogue
import LayeredSettings.Proofs.Callbacks
import LayeredSettings.Proofs.Inquiries
import LayeredSettings.Proofs.Seclusion
import LayeredSettings.Proofs.Ledgers
import LayeredSettings.Proofs.Faithful
import LayeredSettings.Proofs.Drawing
import LayeredSettings.Proofs.Accord
import LayeredSettings.Proofs.Members
import LayeredSettings.Proofs.Joining
import LayeredSettings.Proofs.Places
import LayeredSettings.Proofs.Lifting
import LayeredSettings.Proofs.Globals
import LayeredSettings.Proofs.Views
import LayeredSettings.Proofs.Selecting
import LayeredSettings.Proofs.Placeholders
import LayeredSettings.Proofs.Targets
import LayeredSettings.Proofs.Echoes
import LayeredSettings.Proofs.Safekeeping
import LayeredSettings.Proofs.Routing
import LayeredSettings.Proofs.Keying
import LayeredSettings.Proofs.Decorating
import LayeredSettings.Proofs.Evolving
import LayeredSettings.Proofs.Presenting
import LayeredSettings.Proofs.Lineage
import LayeredSettings.Proofs.Ascent
import LayeredSettings.Proofs.Nearest
import LayeredSettings.Proofs.Provenance
import LayeredSettings.Proofs.Shelving
import LayeredSettings.Proofs.Partwise
import LayeredSettings.Proofs.Agreeing
import LayeredSettings.Proofs.Visible
import LayeredSettings.Proofs.Defaults
import LayeredSettings.Proofs.Filing
import LayeredSettings.Proofs.Equality
import LayeredSettings.Proofs.Rounding
import LayeredSettings.Proofs.Numerals
import LayeredSettings.Proofs.Legible
import LayeredSettings.Proofs.Restoring
import LayeredSettings.Proofs.Present
import LayeredSettings.Proofs.Hollow
import LayeredSettings.Proofs.Catalogue
import LayeredSettings.Proofs.Declarations
import LayeredSettings.Proofs.Trailing
import LayeredSettings.Proofs.Retracing
import LayeredSettings.Proofs.Sweeping
import LayeredSettings.Proofs.Impartial
import LayeredSettings.Proofs.Onward
import LayeredSettings.Proofs.Composing
