import BeetKernel.Abi.Calls
import BeetKernel.Abi.Results
import BeetKernel.AsyncRt.Combinators
import BeetKernel.AsyncRt.Delivery
import BeetKernel.AsyncRt.Idle
import BeetKernel.AsyncRt.Timers
import BeetKernel.Display.InputRing
import BeetKernel.Display.Ownership
import BeetKernel.Fs.Refinement
import BeetKernel.Input.Keyboard
import BeetKernel.Ipc.Departure
import BeetKernel.Ipc.Futex
import BeetKernel.Ipc.Recording
import BeetKernel.Ipc.Retry
import BeetKernel.Ipc.Selection
import BeetKernel.Log.Readers
import BeetKernel.Names.Rejected
import BeetKernel.Net.Lease
import BeetKernel.Sharing.Lending
import BeetKernel.Shell.Input
import BeetKernel.Text
import BeetKernel.Virtio.Descriptors
import BeetKernel.Virtio.Layout
import BeetKernel.Virtio.Requests
