import PeachOS.Kheap.Init
import PeachOS.Task.List
import PeachOS.Task.Preemption
import PeachOS.Paging.Lookup
import PeachOS.Multiheap.Runs
import PeachOS.Disk.RoundRobin
import PeachOS.Keyboard.Ring
import PeachOS.Process.WindowEvents
import PeachOS.Process.Files
import PeachOS.Process.Faithful
import PeachOS.Window.Stacking
import PeachOS.Graphics.Containment
import PeachOS.Process.References
import PeachOS.Paging.Exhaustion
import PeachOS.Paging.Release
import PeachOS.Disk.NvmeRead
import PeachOS.Window.Repaint
import PeachOS.Disk.NvmeRings
import PeachOS.Pci.Ecam
import PeachOS.Pci.BarSizes
import PeachOS.Pci.Scan
import PeachOS.Disk.PastRange
import PeachOS.Fat16.Links
import PeachOS.Isr80h.ProgramPath
import PeachOS.Disk.Gpt
import PeachOS.Io.Tsc
import PeachOS.Fat16.ShortNames
import PeachOS.Fs.PathParts
import PeachOS.Window.Layout
import PeachOS.Fat16.Slices
import PeachOS.Fat16.ItemCount
import PeachOS.Fat16.HeaderBounds
import PeachOS.Fat16.Ownership
import PeachOS.Graphics.Backspace
import PeachOS.Graphics.Glyphs
import PeachOS.Graphics.Background
import PeachOS.Vector.Grow
import PeachOS.Heap.FirstFit
import PeachOS.Vector.Reorder
import PeachOS.Stdlib.Readline
import PeachOS.Gui.TextWrap
import PeachOS.Stdlib.Command
import PeachOS.Gui.Textfield
import PeachOS.Gui.Listarea
import PeachOS.Gui.ListareaItems
import PeachOS.Gui.Property
import PeachOS.Calculator.Equals
import PeachOS.Mouse.Packets
import PeachOS.Task.Turns
