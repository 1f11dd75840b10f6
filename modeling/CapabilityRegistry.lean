import CapabilityRegistry.Lib.Sort
import CapabilityRegistry.Rejections
import CapabilityRegistry.Lifetimes
import CapabilityRegistry.RestoredEvidence
import CapabilityRegistry.Truth
import CapabilityRegistry.Typing
import CapabilityRegistry.Generations
import CapabilityRegistry.Duplicates
import CapabilityRegistry.Withdrawals
import CapabilityRegistry.InForce
import CapabilityRegistry.KeyGenerations
import CapabilityRegistry.OrderIndependence
import CapabilityRegistry.Revisions
import CapabilityRegistry.Backpressure
import CapabilityRegistry.Restarts
import CapabilityRegistry.Frames
import CapabilityRegistry.Messages
import CapabilityRegistry.Vouching
import CapabilityRegistry.Incarnations
import CapabilityRegistry.Delivery
import CapabilityRegistry.Receiving
import CapabilityRegistry.RefusedImports
import CapabilityRegistry.Truncation
import CapabilityRegistry.Survival
import CapabilityRegistry.Declarations
import CapabilityRegistry.Winners
import CapabilityRegistry.Precedence
import CapabilityRegistry.Comparisons
import CapabilityRegistry.Digests
import CapabilityRegistry.Folding
import CapabilityRegistry.Knowledge
import CapabilityRegistry.Levels
import CapabilityRegistry.Platforms
import CapabilityRegistry.Spellings
import CapabilityRegistry.Steppings
import CapabilityRegistry.Orderings
import CapabilityRegistry.ValueOrder
import CapabilityRegistry.Normalization
import CapabilityRegistry.Numerals
import CapabilityRegistry.Spans
import CapabilityRegistry.Checksums
import CapabilityRegistry.Serials
import CapabilityRegistry.Sinks
import CapabilityRegistry.Acknowledgements
import CapabilityRegistry.Storage
import CapabilityRegistry.EventLoop
import CapabilityRegistry.RemotePublisher
