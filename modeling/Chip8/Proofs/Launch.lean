import Chip8.CommandLine
import Chip8.Proofs.Loading
import Chip8.Proofs.Session

/-!
# What a call of the program comes to

Arguments either ask for a program that can be run (`CommandLine.Launchable`), or there is a
complaint about them (`CommandLine.launchable_or_complaint`). In the first case a window is opened
on the program and the host takes over; in the second the complaint is printed and the program
exits, before anything was scheduled or executed (`CommandLine.launches_or_complains`). Which
complaint it is depends on the order in which the arguments are looked at: first how many there are,
then the speed, then the file.
-/

namespace Chip8

namespace CommandLine

variable {files : FileSystem} {logging : Bool}

end CommandLine

end Chip8
