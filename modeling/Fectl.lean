import Fectl.Basic
import Fectl.Codec
import Fectl.Process.Handle
import Fectl.Process.Moves
import Fectl.Process.Life
import Fectl.Process.Runs
import Fectl.Process.Worker
import Fectl.Process.Deadlines
import Fectl.Cmd.Center
import Fectl.Cmd.Steps
import Fectl.Cmd.Shutdown
