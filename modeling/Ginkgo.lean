import Ginkgo.Ipc.Confinement
import Ginkgo.Ipc.Delivery
import Ginkgo.Ipc.WindowBuffers
import Ginkgo.Ipc.Wakeup
import Ginkgo.Kernel.WaitRuntime.Runs
import Ginkgo.Kernel.RequestBroker.Runs
import Ginkgo.Kernel.Writeback.Runs
import Ginkgo.Kernel.AsyncBlock.Guarantees
import Ginkgo.Kernel.Mapping
import Ginkgo.Kernel.Power.Runs
import Ginkgo.Kernel.Usb
import Ginkgo.Shell.Invariant
import Ginkgo.TextEditor.Invariant
import Ginkgo.ScrollLayout
