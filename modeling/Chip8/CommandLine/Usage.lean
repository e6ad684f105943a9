/-!
# Usage

The texts that explain the options.
-/

namespace Chip8.CommandLine

/-- The options at a glance. -/
def usage : List String :=
  ["usage: chemu [-h] [--speed N] [--scale N] [--headless] [--steps N] [--monitor]",
   "             [--trace] [--assemble SRC OUT] [--listing] [--disassemble]",
   "             [ROM]"]

/-- The options one by one, with examples. -/
def explanation : List String :=
  usage ++
  ["",
   "Chemu CHIP-8 emulator",
   "",
   "positional arguments:",
   "  ROM                 CHIP-8 program image to run",
   "",
   "options:",
   "  -h, --help          show this help message and exit",
   "  --speed N           Instructions per second (default: 600)",
   "  --scale N           Pixel scale factor for the window (default: 10)",
   "  --headless          Run without a window and print the final screen",
   "  --steps N           Instructions to run in headless mode (default: 6000)",
   "  --monitor           Start the interactive debug monitor",
   "  --trace             Print every executed instruction",
   "  --assemble SRC OUT  Assemble SRC to the program image OUT and exit",
   "  --listing, -l       Print assembly listing (with --assemble)",
   "  --disassemble       Print a disassembly of ROM and exit",
   "",
   "Examples:",
   "  python cli.py pong.ch8",
   "  python cli.py pong.ch8 --speed 1000 --scale 15",
   "  python cli.py pong.ch8 --headless --steps 20000",
   "  python cli.py pong.ch8 --monitor",
   "  python cli.py pong.ch8 --disassemble",
   "  python cli.py --assemble game.asm game.ch8 --listing"]

end Chip8.CommandLine
