import Dendy.Word
import Dendy.Cartridge.Mapper007
import Dendy.Cartridge.Registers
import Dendy.Netplay.Game
import Dendy.Netplay.Replay
import Dendy.Netplay.Reconcile
import Dendy.Netplay.Lockstep
import Dendy.Netplay.Live
import Dendy.Netplay.Session
import Dendy.Netplay.Buffers
import Dendy.Netplay.FrameCheck
import Dendy.Netplay.Peers
import Dendy.Netplay.Guest
import Dendy.Bus.Devices
import Dendy.Bus.Memory
import Dendy.Bus.Tick
import Dendy.Bus.Ram
