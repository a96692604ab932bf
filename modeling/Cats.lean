import Cats.Cas.Hashlink
import Cats.Cas.LocatorTable
import Cats.AddressStore.Agreement
import Cats.AddressStore.Get
import Cats.Mesh.Offer
import Cats.Structure.Reconcile
import Cats.Codec.JsonRoundTrip
import Cats.Effect
import Cats.Python.Url
import Cats.Feedback.Tamper
import Cats.AddressStore.Peer
import Cats.Cas.ContentId
import Cats.Registry.Store
import Cats.Registry.Runs
import Cats.Registry.Exact
import Cats.Registry.Intake
import Cats.Registry.IntakeAgreement
import Cats.Registry.Record
import Cats.Registry.Attribution
import Cats.Mesh.Escape
import Cats.Cas.Interrupted
import Cats.Plant.PartitionLayout
import Cats.Plant.RayIo
import Cats.Plant.RayCompute
import Cats.Plant.Landing
import Cats.Python.Integer
import Cats.Plant.PartitionCount
import Cats.Plant.JobResult
import Cats.Cas.FileMap
import Cats.Cas.TreeIdentity
import Cats.Cas.Materialize
import Cats.Structure.Transport
import Cats.Mesh.Residue
import Cats.Python.Float
import Cats.Ldp.Resources
import Cats.Ldp.Runs
import Cats.Ldp.Address
import Cats.Ldp.Named
import Cats.Python.Lines
import Cats.Plant.StaleState
import Cats.Plant.Healed
import Cats.Bom.FailOpen
import Cats.Registry.SameContent
import Cats.Registry.Concurrent
import Cats.Mesh.FlatBom
import Cats.Cas.Lossless
import Cats.Registry.SlotFaithful
import Cats.Cas.CodecLaws
import Cats.Bom.AllocateView
import Cats.Registry.Projection
import Cats.Bom.StableDocuments
import Cats.Plant.RayHead
import Cats.Plant.HeadHeal
import Cats.Mesh.StagePairs
import Cats.Bom.SysmlFresh
import Cats.Registry.HonestBinds
import Cats.Identity.MultibaseLaws
import Cats.Registry.RefSafety
import Cats.Registry.RefRoundTrip
import Cats.Plant.ShardOrder
import Cats.Plant.FileBags
import Cats.Bom.PeerFetch
import Cats.Ldp.Wire
import Cats.Function.Imports
import Cats.Executor.HomeSpared
import Cats.Plant.Collected
import Cats.Mesh.Link
import Cats.Mesh.LinkSides
import Cats.Mesh.LinkKept
import Cats.Mesh.LinkLineage
