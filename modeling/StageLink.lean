import StageLink.Interchange.TranslationUnit
import StageLink.Main
import StageLink.Proofs.BodyNodes
import StageLink.Proofs.Stability
import StageLink.Proofs.Connected
import StageLink.Proofs.Consensus
import StageLink.Proofs.DeadStores
import StageLink.Proofs.Finishing
import StageLink.Proofs.Folding
import StageLink.Proofs.Problems
import StageLink.Proofs.Raising
import StageLink.Proofs.Reaching
import StageLink.Proofs.Rebuilding
import StageLink.Proofs.Relabeling
import StageLink.Proofs.Renumbered
import StageLink.Proofs.Resolving
import StageLink.Proofs.Room
import StageLink.Proofs.Accounts
import StageLink.Proofs.Adoption
import StageLink.Proofs.Continuing
import StageLink.Proofs.Capturing
import StageLink.Proofs.Gathering
import StageLink.Proofs.Lexical
import StageLink.Proofs.Scopes
import StageLink.Proofs.ScopedUnits
import StageLink.Proofs.Sharing
import StageLink.Proofs.Sheltered
import StageLink.Proofs.Slots
import StageLink.Proofs.Soundness
import StageLink.Shader.Problems
import StageLink.Proofs.Renumbering
import StageLink.Proofs.Relisting
import StageLink.Proofs.Unfailing
import StageLink.Proofs.Tangles
import StageLink.Proofs.Uncalled
import StageLink.Proofs.Duplicates
import StageLink.Proofs.Sightings
import StageLink.Proofs.Parts
import StageLink.Proofs.VertexInputs
import StageLink.Proofs.FragmentOutputs
import StageLink.Proofs.TextureUnits
import StageLink.Proofs.BlockPositions
import StageLink.Proofs.FoldedOnce
import StageLink.Proofs.Sizing
import StageLink.Proofs.Upkeep
import StageLink.Proofs.Traversals
import StageLink.Proofs.Whereabouts
import StageLink.Proofs.StaticUse
import StageLink.Proofs.ProblemsExact
import StageLink.Proofs.ResourceNames
import StageLink.Proofs.SlotMasks
