import Lindenmayer.Grammar.Classic
import Lindenmayer.Path.Polyline
import Lindenmayer.Path.Walk
import Lindenmayer.Proofs.Grammar.BoundedDerivation
import Lindenmayer.Proofs.Grammar.Brackets
import Lindenmayer.Proofs.Turtle.BracketReading
import Lindenmayer.Proofs.Turtle.DrawnCurves
import Lindenmayer.Proofs.Turtle.StackElimination
import Lindenmayer.Stored.Grammar
import Lindenmayer.Stored.Turtle
import Lindenmayer.Proofs.Grammar.Resumption
import Lindenmayer.Proofs.Turtle.CurveAccount
import Lindenmayer.Proofs.Turtle.PrefixReading
import Lindenmayer.Proofs.Turtle.UnboundSymbols
import Lindenmayer.Proofs.Grammar.Linearity
import Lindenmayer.Proofs.Turtle.Coherence
import Lindenmayer.Proofs.Turtle.Kinds
import Lindenmayer.Proofs.Grammar.ClassicTallies
import Lindenmayer.Proofs.Turtle.ClassicRendering
import Lindenmayer.Proofs.Grammar.Images
import Lindenmayer.Proofs.Turtle.StillStroke
import Lindenmayer.Proofs.Grammar.PaperFolding
import Lindenmayer.Proofs.Turtle.Headings
import Lindenmayer.Proofs.Curve.VertexLayout
import Lindenmayer.Proofs.Path.Stops
import Lindenmayer.Proofs.Grammar.Snowflake
import Lindenmayer.Proofs.Path.ArcLength
import Lindenmayer.Proofs.Path.Turning
import Lindenmayer.Proofs.Path.Parameters
import Lindenmayer.Proofs.Path.EndPoints
import Lindenmayer.Proofs.Space.Facing
import Lindenmayer.Proofs.Grammar.CantorDigits
import Lindenmayer.Proofs.Grammar.ClassicCensus
import Lindenmayer.Proofs.Grammar.DragonSegments
import Lindenmayer.Proofs.Single.Circle
import Lindenmayer.Proofs.Turtle.Plane
import Lindenmayer.Proofs.Grammar.DerivationEvents
import Lindenmayer.Proofs.Json.Spelling
import Lindenmayer.Proofs.Stored.Documents
