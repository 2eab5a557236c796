import FrameGraph.Main
import FrameGraph.Proofs.CommandLine.Report
import FrameGraph.Proofs.Description.Order
import FrameGraph.Proofs.Description.Ports
import FrameGraph.Proofs.Grammar
import FrameGraph.Proofs.Graph.Assets
import FrameGraph.Proofs.Graph.PortMaps
import FrameGraph.Proofs.Graph.Removal
import FrameGraph.Proofs.Graph.Settings
import FrameGraph.Proofs.Image.Mosaic
import FrameGraph.Proofs.Queue.Capacity
import FrameGraph.Proofs.Queue.Ledger
import FrameGraph.Proofs.Queue.Release
import FrameGraph.Session.Step
import FrameGraph.Proofs.Graph.Compatibility
import FrameGraph.Proofs.Description.Refusal
import FrameGraph.Proofs.Queue.Capacity
