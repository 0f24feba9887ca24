import Crochet.Clock
import Crochet.Console.Arguments
import Crochet.Console.Bar
import Crochet.Console.Describe
import Crochet.Console.Failure
import Crochet.Console.Program
import Crochet.Decimal.Binary
import Crochet.Decimal.Numeral
import Crochet.Decimal.Shortest
import Crochet.Document.Basic
import Crochet.Document.Reader
import Crochet.Fabric.Basic
import Crochet.Fabric.Join
import Crochet.Fabric.Work
import Crochet.Fault
import Crochet.Figure
import Crochet.Index
import Crochet.Instruction
import Crochet.Json.Basic
import Crochet.Json.Reader
import Crochet.Main
import Crochet.Mesh.Basic
import Crochet.Mesh.Export
import Crochet.Mesh.FileName
import Crochet.Mesh.Ply
import Crochet.Mesh.Stl
import Crochet.Pattern
import Crochet.Proofs.Clock
import Crochet.Proofs.Decimal.Digits
import Crochet.Proofs.Decimal.Quotient
import Crochet.Proofs.Document.Items
import Crochet.Proofs.Fabric.Accounts
import Crochet.Proofs.Fabric.Assembly
import Crochet.Proofs.Fabric.Conservation
import Crochet.Proofs.Fabric.Consistency
import Crochet.Proofs.Fabric.Counting
import Crochet.Proofs.Fabric.FinishingOff
import Crochet.Proofs.Fabric.Footing
import Crochet.Proofs.Fabric.Growth
import Crochet.Proofs.Fabric.History
import Crochet.Proofs.Fabric.MagicRing
import Crochet.Proofs.Fabric.MeshSize
import Crochet.Proofs.Fabric.Reachable
import Crochet.Proofs.Fabric.Refusal
import Crochet.Proofs.Fabric.Rings
import Crochet.Proofs.Fabric.Seeds
import Crochet.Proofs.Fabric.Stitching
import Crochet.Proofs.Fabric.Triangles
import Crochet.Proofs.Fabric.WellFormed
import Crochet.Proofs.Fabric.Worked
import Crochet.Proofs.Figure.Execution
import Crochet.Proofs.Figure.Splitting
import Crochet.Proofs.Mesh.Ply
import Crochet.Proofs.Relax.Beside
import Crochet.Proofs.Relax.Bounds
import Crochet.Proofs.Relax.Components
import Crochet.Proofs.Relax.Forest
import Crochet.Proofs.Relax.Groups
import Crochet.Proofs.Relax.Held
import Crochet.Proofs.Relax.Holding
import Crochet.Proofs.Relax.Joining
import Crochet.Proofs.Relax.LastAnchor
import Crochet.Proofs.Relax.Neighbours
import Crochet.Proofs.Relax.Report
import Crochet.Proofs.Relax.RootSearch
import Crochet.Proofs.Relax.Velocity
import Crochet.Proofs.Text
import Crochet.Proofs.Timekeeping
import Crochet.Proofs.View
import Crochet.Relax.Anchor
import Crochet.Relax.Body
import Crochet.Relax.Forest
import Crochet.Relax.Group
import Crochet.Relax.Report
import Crochet.Relax.Rig
import Crochet.Relax.Settings
import Crochet.Relax.Strain
import Crochet.Stitch
import Crochet.Text.Blank
import Crochet.Text.Cut
import Crochet.Vec3
import Crochet.View
import Crochet.Proofs.Frame
import Crochet.Proofs.Mesh.Stl
import Crochet.Proofs.Console.Bar
import Crochet.Proofs.Console.Describe
