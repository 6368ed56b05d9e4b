import Xpcf.Model.Factory
import Xpcf.Proofs.Evolution
import Xpcf.Proofs.Resolving
import Xpcf.Proofs.Declaring
import Xpcf.Proofs.Runs
import Xpcf.Proofs.Construction
import Xpcf.CodeLib.Traces
import Xpcf.Proofs.ServedRequests
import Xpcf.Proofs.Singletons
import Xpcf.Proofs.SharedSingletons
import Xpcf.Proofs.MultiBinding
import Xpcf.Proofs.BindingOrder
import Xpcf.Proofs.Needs
import Xpcf.Proofs.Searches
import Xpcf.Proofs.InjectionTrees
import Xpcf.Proofs.CreateComponent
import Xpcf.CodeLib.Acyclic
import Xpcf.Proofs.Termination
import Xpcf.Proofs.CachedComponents
import Xpcf.Proofs.Contexts
import Xpcf.Proofs.Aliases
import Xpcf.CodeLib.Monitor
import Xpcf.Model.SharedFifo
import Xpcf.Proofs.FifoOrder
import Xpcf.Proofs.FifoRelease
import Xpcf.Proofs.FifoDeadlock
import Xpcf.Proofs.ConfigPaths
import Xpcf.Proofs.Reloading
import Xpcf.CodeLib.Passes
import Xpcf.Proofs.Reading
import Xpcf.Proofs.Autobinding
import Xpcf.Proofs.LoadErrors
import Xpcf.CodeLib.Numerals
import Xpcf.Model.Configure
import Xpcf.Model.Serialize
import Xpcf.Proofs.PropertyTrees
import Xpcf.Proofs.Configuring
import Xpcf.Proofs.RoundTrip
import Xpcf.Proofs.Saves
import Xpcf.CodeLib.Decides
import Xpcf.Proofs.ConfigureErrors
import Xpcf.CodeLib.Rings
import Xpcf.Proofs.CircularBuffer
import Xpcf.CodeLib.Steps
import Xpcf.Model.MultiConsumer
import Xpcf.Proofs.MultiConsumers
import Xpcf.CodeLib.SharedPtrs
import Xpcf.Model.ComponentRef
import Xpcf.Proofs.ComponentRefs
import Xpcf.Proofs.ModuleNodes
import Xpcf.Proofs.Retries
import Xpcf.Proofs.SiblingBinds
import Xpcf.Model.CppAst
import Xpcf.Model.Descriptors
import Xpcf.CodeLib.Occurrences
import Xpcf.Model.ProtoGenerator
import Xpcf.Proofs.RpcNames
import Xpcf.Model.ConfigGenerator
import Xpcf.Proofs.GeneratedConfigs
import Xpcf.Model.RemoteComponents
import Xpcf.Proofs.ComponentProperties
import Xpcf.CodeLib.IntegerTypes
import Xpcf.Model.WireValues
import Xpcf.Proofs.ExactIntegers
import Xpcf.Model.ConcreteProperty
import Xpcf.Proofs.PropertyItems
import Xpcf.Model.PropertyCopies
import Xpcf.Proofs.PropertyCopies
import Xpcf.Model.FifoClasses
import Xpcf.Proofs.FifoClear
import Xpcf.Proofs.FifoBack
import Xpcf.Model.Enumerators
import Xpcf.Proofs.BlockEnumerators
import Xpcf.Proofs.ModuleComponents
import Xpcf.Proofs.BindingFrames
import Xpcf.Proofs.RangeMasks
import Xpcf.Model.TypeParser
import Xpcf.Proofs.TypeDirections
import Xpcf.Proofs.FieldAgreement
import Xpcf.Model.BaseBuffer
import Xpcf.Proofs.BaseBuffers
import Xpcf.Proofs.MultiInjections
import Xpcf.Proofs.FieldNames
import Xpcf.CodeLib.SeparatedLists
import Xpcf.Proofs.TypeNames
import Xpcf.CodeLib.XmlGrammar
import Xpcf.CodeLib.XmlSpelling
import Xpcf.Proofs.WrittenXml
import Xpcf.Proofs.WrittenFiles
import Xpcf.Model.SaveModule
import Xpcf.Proofs.XmlViews
import Xpcf.Proofs.SavedModules
import Xpcf.Proofs.RemoteCalls
import Xpcf.Model.Compression
import Xpcf.Proofs.Compression
import Xpcf.Model.Tasks
import Xpcf.Proofs.Tasks
