import Dyndxt.Run.Paths
import Dyndxt.Map.Rows
import Dyndxt.Mem.Copies
import Dyndxt.Mem.Slots
import Dyndxt.Mem.Spaces
import Dyndxt.Machine.Stack
import Dyndxt.Loader.FilePasses
import Dyndxt.Loader.Load
import Dyndxt.Loader.HeaderPlaces
import Dyndxt.Loader.RawReads
import Dyndxt.Loader.Runs
import Dyndxt.Loader.ImageWrites
import Dyndxt.Loader.WriteTargets
import Dyndxt.Loader.WritesInside
import Dyndxt.Loader.RelocEnds
import Dyndxt.Loader.RelocTable
import Dyndxt.Loader.ImportThunks
import Dyndxt.Loader.ImportTable
import Dyndxt.Loader.ImportOutcome
import Dyndxt.Loader.MappedImage
import Dyndxt.Loader.WellFormed
import Dyndxt.Loader.Reference
import Dyndxt.Loader.LoadOutcome
import Dyndxt.Loader.BothBuilds
import Dyndxt.Loader.Rebase
import Dyndxt.Loader.StaleMemory
import Dyndxt.Registry.ModuleRegistry
import Dyndxt.Registry.Registering
import Dyndxt.Registry.Contents
import Dyndxt.Registry.LastWrite
import Dyndxt.Registry.ByName
import Dyndxt.Registry.Enumerate
import Dyndxt.Registry.Ownership
import Dyndxt.Registry.Atomic
import Dyndxt.Registry.Walk
import Dyndxt.Registry.FullWalk
import Dyndxt.Registry.Custody
import Dyndxt.Params.CommandParameters
import Dyndxt.Params.Parse
import Dyndxt.Params.Grammar
import Dyndxt.Params.Scan
import Dyndxt.Params.Collect
import Dyndxt.Params.Accepts
import Dyndxt.Params.Unclosed
import Dyndxt.Params.ValueCopy
import Dyndxt.Params.Concat
import Dyndxt.Params.Lookup
import Dyndxt.Params.Numbers
import Dyndxt.Params.Digits
import Dyndxt.Params.Render
import Dyndxt.Params.NormalForm
import Dyndxt.Params.Memory
import Dyndxt.Session.Xbdm
import Dyndxt.Session.DxtMain
import Dyndxt.Link.LinkLoadedModules
import Dyndxt.Link.Exports
import Dyndxt.Link.LoadedModules
import Dyndxt.Bootstrap.GetExportAddress
import Dyndxt.Session.Interleaving
import Dyndxt.Mem.Place
import Dyndxt.Session.Transfer
import Dyndxt.Session.LoadCommand
import Dyndxt.Session.Response
import Dyndxt.Loader.TlsCallbacks
import Dyndxt.Session.Complete
import Dyndxt.Session.LoadSession
import Dyndxt.Session.Commands
import Dyndxt.Session.Verbs
import Dyndxt.Session.ExportCommand
import Dyndxt.Session.Hosting
import Dyndxt.Session.Service
import Dyndxt.Session.Startup
import Dyndxt.Session.RunLog
import Dyndxt.Session.LeanBuild
import Dyndxt.Session.Install
import Dyndxt.Session.LoadRuns
import Dyndxt.Session.HelloLines
import Dyndxt.Session.Reserve
import Dyndxt.Bootstrap.Strings
import Dyndxt.Bootstrap.ProcessCommand
import Dyndxt.Bootstrap.Texts
import Dyndxt.Bootstrap.ParseInteger
import Dyndxt.Bootstrap.Install
import Dyndxt.Bootstrap.ParseArg
import Dyndxt.Bootstrap.IntegerToHex
import Dyndxt.Bootstrap.Arguments
import Dyndxt.Bootstrap.ResolveLoop
import Dyndxt.Bootstrap.Resolve
import Dyndxt.Bootstrap.Blocks
import Dyndxt.Bootstrap.Answers
import Dyndxt.Bootstrap.Upload
import Dyndxt.Bootstrap.Stages
import Dyndxt.Run.Simulation
import Dyndxt.Loader.EntryWords
import Dyndxt.Loader.TwoBuilds
import Dyndxt.Loader.RelocDirectory
