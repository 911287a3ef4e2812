import Monomux.System.Loop
import Monomux.System.BufferedChannel.Basic
import Monomux.System.BufferedChannel.Read
import Monomux.System.BufferedChannel.Write
import Monomux.System.BufferedChannel.Run
import Monomux.System.BufferedChannel.Termination
import Monomux.System.BufferedChannel.Stopping
import Monomux.System.BufferedChannel.Replay
import Monomux.System.Unix.Pipe
import Monomux.System.Unix.StalledWrite
import Monomux.System.Unix.AnonymousPipe
import Monomux.System.Unix.KernelPipe
import Monomux.System.Process
import Monomux.System.Spawn
import Monomux.Frontend.CommandLine
import Monomux.Frontend.OptionLoop
import Monomux.Frontend.Parse
import Monomux.Config
import Monomux.Version
import Monomux.Client.Connect
