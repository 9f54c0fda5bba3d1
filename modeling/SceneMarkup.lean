import SceneMarkup.CommandLine.Run
import SceneMarkup.CommandLine.Store
import SceneMarkup.Main
import SceneMarkup.Pipeline
import SceneMarkup.Proofs.Appending
import SceneMarkup.Proofs.ComponentName
import SceneMarkup.Proofs.Decimal.Canonical
import SceneMarkup.Proofs.DesignLink.Link
import SceneMarkup.Proofs.DiagnosticOrder
import SceneMarkup.Proofs.Document.Containers
import SceneMarkup.Proofs.Document.Damage
import SceneMarkup.Proofs.Document.Gradients
import SceneMarkup.Proofs.Document.MissingStyles
import SceneMarkup.Proofs.Document.Outline
import SceneMarkup.Proofs.Document.Replacement
import SceneMarkup.Proofs.Identifier
import SceneMarkup.Proofs.Markup.Spelling
import SceneMarkup.Proofs.Minting
import SceneMarkup.Proofs.Mismatch
import SceneMarkup.Proofs.ModuleBody
import SceneMarkup.Proofs.ModuleLink
import SceneMarkup.Proofs.NodeIds
import SceneMarkup.Proofs.Occurrence
import SceneMarkup.Proofs.Placement
import SceneMarkup.Proofs.Precedence
import SceneMarkup.Proofs.ReadBack
import SceneMarkup.Proofs.Scene.Compositing
import SceneMarkup.Proofs.Shortcut
import SceneMarkup.Proofs.Style.Ambiguity
import SceneMarkup.Proofs.Style.Cascade
import SceneMarkup.Proofs.Style.Effect
import SceneMarkup.Proofs.Style.Merge
import SceneMarkup.Proofs.Style.Reports
import SceneMarkup.Proofs.Style.Tiling
import SceneMarkup.Proofs.Walker
import SceneMarkup.Scene.Codec.Node
