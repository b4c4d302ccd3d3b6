import DoorSecurity.Tags.AccessList
import DoorSecurity.Tags.PowerLoss
import DoorSecurity.Tags.BusFaults
import DoorSecurity.Tags.WipeRace
import DoorSecurity.Tags.Duplicates
import DoorSecurity.Tags.FullStore
import DoorSecurity.Layout.Areas
import DoorSecurity.Layout.Calibration
import DoorSecurity.Layout.Stores
import DoorSecurity.Password.Agreement
import DoorSecurity.Password.Authority
import DoorSecurity.Password.Bounds
import DoorSecurity.Password.PowerLoss
import DoorSecurity.Threads.Locks
import DoorSecurity.Threads.Authorisation
import DoorSecurity.Threads.Countdown
import DoorSecurity.Threads.Interrupts
import DoorSecurity.Clock.Decode
import DoorSecurity.Clock.Calls
import DoorSecurity.Clock.Counter
import DoorSecurity.Clock.Display
import DoorSecurity.Reader.Anticollision
import DoorSecurity.Touch.Commands
import DoorSecurity.Touch.Filter
import DoorSecurity.Tags.Wired
import DoorSecurity.Reader.Request
import DoorSecurity.Touch.Adc
import DoorSecurity.Threads.Scheduled
import DoorSecurity.Kernel.Lists
import DoorSecurity.Kernel.Timers
