import ResourceLocator.Main
import ResourceLocator.Proofs.CommandLine.Scan
import ResourceLocator.Proofs.Config.Applied
import ResourceLocator.Proofs.Config.Faults
import ResourceLocator.Proofs.Config.Precedence
import ResourceLocator.Proofs.Config.Prefix
import ResourceLocator.Proofs.Config.Sound
import ResourceLocator.Proofs.Config.Valid
import ResourceLocator.Proofs.Config.Variables
import ResourceLocator.Proofs.FileSystem.Realpath
import ResourceLocator.Proofs.FileSystem.SameWays
import ResourceLocator.Proofs.FileSystem.Spelling
import ResourceLocator.Proofs.Locate.Absolute
import ResourceLocator.Proofs.Locate.Agreement
import ResourceLocator.Proofs.Locate.Dirlist
import ResourceLocator.Proofs.Locate.Extra
import ResourceLocator.Proofs.Locate.Layers
import ResourceLocator.Proofs.Locate.Lookup
import ResourceLocator.Proofs.Locate.Relocation
import ResourceLocator.Proofs.Locate.RootChain
import ResourceLocator.Proofs.Locate.Scan
import ResourceLocator.Proofs.Locate.Shadowing
import ResourceLocator.Proofs.Locate.Startup
import ResourceLocator.Proofs.Locate.Still
import ResourceLocator.Proofs.Log.Journal
import ResourceLocator.Proofs.Log.Lines
import ResourceLocator.Proofs.Path.Location
import ResourceLocator.Proofs.Path.Names
import ResourceLocator.Proofs.Path.Order
import ResourceLocator.Proofs.Probe.Agreement
import ResourceLocator.Proofs.Program.Exit
import ResourceLocator.Proofs.Program.Includes
import ResourceLocator.Proofs.Program.Output
import ResourceLocator.Proofs.Program.Reported
import ResourceLocator.Proofs.Program.Executable
import ResourceLocator.Proofs.Program.LogFile
import ResourceLocator.Proofs.Program.Level
import ResourceLocator.Proofs.Program.Trace
import ResourceLocator.Proofs.Program.Verbose
import ResourceLocator.Proofs.Session
import ResourceLocator.Proofs.Tool.EnvName
import ResourceLocator.Proofs.Tool.Words
import ResourceLocator.Proofs.Trace.Command
import ResourceLocator.Proofs.Value.Equality
