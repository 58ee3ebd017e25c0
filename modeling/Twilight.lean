import Twilight.Fs.Fat32Size
import Twilight.Fs.AllOrNothing
import Twilight.Fs.Initramfs
import Twilight.Fs.Mounts
import Twilight.Fs.OtherReaders
import Twilight.Fs.Pipe
import Twilight.Fs.Rename
import Twilight.Fs.Through
import Twilight.Fs.Zones
import Twilight.Memory.ElfContents
import Twilight.Memory.ElfSafe
import Twilight.Memory.FramePool
import Twilight.Memory.LifeCycle
import Twilight.Memory.MemFd
import Twilight.Net.Ports
import Twilight.Net.UnixLocks
import Twilight.Net.UnixReadiness
import Twilight.Net.UnixRegistry
import Twilight.Net.UnixStream
import Twilight.Proc.Dispatch
import Twilight.Proc.Exec
import Twilight.Proc.Groups
import Twilight.Proc.InitialStack
import Twilight.Proc.Raise
import Twilight.Proc.Waits
import Twilight.Proc.Zombies
import Twilight.Syscall.Credentials
import Twilight.Syscall.Dirents
import Twilight.Syscall.Offsets
import Twilight.Twinit.Bootstrap
import Twilight.Wayland.Control
import Twilight.Wayland.Framing
import Twilight.Timer.ClockSource
