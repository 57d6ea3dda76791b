import RwxScene.Main
import RwxScene.Json.Reader
import RwxScene.Proofs.Interpreter.Run
import RwxScene.Proofs.Mesh.Batch
import RwxScene.Proofs.Interpreter.Effect
import RwxScene.Proofs.Interpreter.Levels
import RwxScene.Proofs.Interpreter.Scopes
import RwxScene.Proofs.Interpreter.Layout
import RwxScene.Proofs.Interpreter.Depths
import RwxScene.Proofs.Interpreter.Content
import RwxScene.Proofs.Interpreter.Journal
import RwxScene.Proofs.Interpreter.Clumpwise
import RwxScene.Proofs.Interpreter.Geometry
import RwxScene.Proofs.Command.Faces
import RwxScene.Proofs.Material.Key
import RwxScene.Proofs.Model.Load
import RwxScene.Proofs.Interpreter.Stretches
import RwxScene.Proofs.Model.Batches
import RwxScene.Proofs.Model.Slices
import RwxScene.Proofs.Mesh.SelfContained
import RwxScene.Proofs.Scene.Validation
import RwxScene.Proofs.Scene.Bounds
import RwxScene.Proofs.Scene.Totals
import RwxScene.Proofs.Scene.Verdict
import RwxScene.Proofs.Interpreter.Emitted
import RwxScene.Proofs.Command.Readers
import RwxScene.Proofs.Command.Grammar
import RwxScene.Proofs.Scalar.Packing
import RwxScene.Proofs.Scalar.Signs
import RwxScene.Proofs.Scalar.Order
import RwxScene.Proofs.Scalar.Alike
import RwxScene.Proofs.Scalar.Extremes
import RwxScene.Proofs.Space.Mirror
import RwxScene.Proofs.Space.Reflection
import RwxScene.Proofs.Space.Decompose
import RwxScene.Proofs.Mesh.Mirror
import RwxScene.Proofs.Interpreter.Mirror
import RwxScene.Proofs.Model.Mirror
import RwxScene.Proofs.Interpreter.Nesting
import RwxScene.Proofs.Interpreter.Aspects
import RwxScene.Proofs.Interpreter.Independence
import RwxScene.Proofs.Text.Deletion
import RwxScene.Proofs.Text.Words
import RwxScene.Proofs.Model.Rejected
import RwxScene.Proofs.Scalar.Rounding
import RwxScene.Proofs.Scalar.Interval
import RwxScene.Proofs.Space.Placement
import RwxScene.Proofs.Space.Unit
import RwxScene.Proofs.Mesh.Normals
import RwxScene.Proofs.Model.Valid
import RwxScene.Proofs.Decimal.Fixed
import RwxScene.Proofs.Interpreter.Brackets
import RwxScene.Proofs.Interpreter.Counts
import RwxScene.Proofs.Model.Json
import RwxScene.Proofs.Mesh.Shading
import RwxScene.Proofs.Model.Counts
import RwxScene.Proofs.Command.Comment
import RwxScene.Proofs.Inspector.Options
import RwxScene.Proofs.Command.Finite
import RwxScene.Proofs.Material.Regular
import RwxScene.Proofs.Mesh.Regular
import RwxScene.Proofs.Model.Regular
import RwxScene.Proofs.Space.Hull
import RwxScene.Proofs.Mesh.Slots
import RwxScene.Proofs.Mesh.FaceOrder
import RwxScene.Proofs.Space.Noise
import RwxScene.Proofs.Interpreter.Surroundings
import RwxScene.Proofs.Interpreter.Baked
import RwxScene.Proofs.Inspector.MissingPath
import RwxScene.Proofs.Mesh.FirstUse
import RwxScene.Proofs.Mesh.Tiling
import RwxScene.Proofs.Space.Tightness
