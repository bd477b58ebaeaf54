import Cityscape.Basic
import Cityscape.Binary64
import Cityscape.Collector.Arrays
import Cityscape.Drawing
import Cityscape.Halving.Plan
import Cityscape.Session
import Cityscape.Skyline.Height
import Cityscape.Skyline.WellFormed
import Cityscape.Storage
import Cityscape.Proofs.StepFunction
import Cityscape.Proofs.WellFormed
import Cityscape.Proofs.Sweep
import Cityscape.Proofs.Composing
import Cityscape.Proofs.Admission
import Cityscape.Proofs.Balance
import Cityscape.Proofs.History
import Cityscape.Proofs.Layers
import Cityscape.Proofs.Independence
import Cityscape.Proofs.Merging
import Cityscape.Proofs.Canonicity
import Cityscape.Proofs.MergeTree
import Cityscape.Proofs.Describing
import Cityscape.Proofs.CallTree
import Cityscape.Proofs.MergeLaws
import Cityscape.Proofs.Depth
import Cityscape.Proofs.Overlap
import Cityscape.Proofs.Refinement
import Cityscape.Proofs.Bounds
import Cityscape.Proofs.Interference
import Cityscape.Proofs.Shelf
import Cityscape.Proofs.Tidy
import Cityscape.Proofs.Growth
import Cityscape.Proofs.Relabelling
import Cityscape.Proofs.FirstFault
import Cityscape.Proofs.Extending
import Cityscape.Proofs.Coordinates
import Cityscape.Proofs.Outline
import Cityscape.Proofs.Retention
import Cityscape.Proofs.Splitting
import Cityscape.Proofs.Wording
