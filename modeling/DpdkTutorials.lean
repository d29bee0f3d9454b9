import DpdkTutorials.Processing.Starvation
import DpdkTutorials.Processing.Shutdown
import DpdkTutorials.Generator.Offload
import DpdkTutorials.Generator.Statistics
import DpdkTutorials.Generator.Pacing
import DpdkTutorials.Generator.Grammar
import DpdkTutorials.Generator.Datagrams
import DpdkTutorials.Generator.Stopping
import DpdkTutorials.Generator.ArgLoop
import DpdkTutorials.Startup.Resources
import DpdkTutorials.Startup.Release
import DpdkTutorials.Startup.Agreement
import DpdkTutorials.Startup.Placement
import DpdkTutorials.Startup.Ports
import DpdkTutorials.Rss.Handoff
import DpdkTutorials.Rss.ToeplitzTest
import DpdkTutorials.Multiprocess.RingFree
import DpdkTutorials.Multiprocess.Buffers
import DpdkTutorials.Multiprocess.Admission
import DpdkTutorials.Sending.Ownership
import DpdkTutorials.Sending.Statistics
import DpdkTutorials.Processing.Ending
import DpdkTutorials.Sending.Ending
import DpdkTutorials.Multiprocess.Ending
import DpdkTutorials.Startup.Lifecycle
import DpdkTutorials.Receiving.Supply
import DpdkTutorials.Receiving.Ending
import DpdkTutorials.Receiving.Split
import DpdkTutorials.Rss.Collisions
import DpdkTutorials.Startup.Transmission
import DpdkTutorials.Generator.Wire
import DpdkTutorials.Processing.Response
import DpdkTutorials.Multiprocess.Response
