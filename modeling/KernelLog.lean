import KernelLog.CommandLine.Run
import KernelLog.Kernel.RingBuffer
import KernelLog.Main
import KernelLog.Printer.Tape
import KernelLog.Proofs.CommandLine
import KernelLog.Proofs.Encodings
import KernelLog.Proofs.Escape.InPlace
import KernelLog.Proofs.Kernel.Growing
import KernelLog.Proofs.Kernel.Shared
import KernelLog.Proofs.Kmsg.Bounds
import KernelLog.Proofs.Kmsg.Closing
import KernelLog.Proofs.Kmsg.Header
import KernelLog.Proofs.Kmsg.Interruptions
import KernelLog.Proofs.Kmsg.Restart
import KernelLog.Proofs.Legacy.RoundTrip
import KernelLog.Proofs.Legacy.Skipping
import KernelLog.Proofs.Legacy.Unclosed
import KernelLog.Proofs.Number.Walk
import KernelLog.Proofs.Output
import KernelLog.Proofs.Printer.History
import KernelLog.Proofs.Printer.Indentation
import KernelLog.Proofs.Printer.IsoTime
import KernelLog.Proofs.Session.Fallback
import KernelLog.Proofs.Session.Sizes
import KernelLog.Text.Pictures
