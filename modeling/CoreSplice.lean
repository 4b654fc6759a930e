import CoreSplice.Main
import CoreSplice.Proofs.Disk.Put
import CoreSplice.Proofs.Outcome
import CoreSplice.Proofs.Injection.Splice
import CoreSplice.Proofs.Injection.Row
import CoreSplice.Proofs.Bytes.Growth
import CoreSplice.Proofs.Injection.Containment
import CoreSplice.Proofs.SymbolMap.LastEntry
import CoreSplice.Proofs.Injection.Plan
import CoreSplice.Proofs.Injection.Leftovers
import CoreSplice.Proofs.Injection.Faultless
import CoreSplice.Proofs.Command.Meaning
import CoreSplice.Proofs.Bytes.Record
import CoreSplice.Proofs.Elf.Entry
import CoreSplice.Proofs.Elf.Opening
import CoreSplice.Proofs.Elf.Covering
import CoreSplice.Proofs.Override.Given
import CoreSplice.Proofs.Injection.Completion
import CoreSplice.Proofs.Bytes.Layers
import CoreSplice.Proofs.Injection.Steady
import CoreSplice.Proofs.Injection.Calls
import CoreSplice.Proofs.Override.Independence
import CoreSplice.Proofs.Injection.Reconstruction
import CoreSplice.Proofs.Injection.Notes
import CoreSplice.Proofs.Injection.Order
import CoreSplice.Proofs.Elf.Reopening
import CoreSplice.Proofs.Elf.Settled
import CoreSplice.Proofs.Command.Again
import CoreSplice.Proofs.Elf.Frame
import CoreSplice.Proofs.Elf.Extension
import CoreSplice.Proofs.Elf.Regrouping
import CoreSplice.Proofs.Elf.Limits
import CoreSplice.Proofs.Injection.Accounting
import CoreSplice.Proofs.Override.Queues
import CoreSplice.Proofs.SymbolMap.Answer
import CoreSplice.Proofs.Command.Verbosity
import CoreSplice.Proofs.Injection.Turns
import CoreSplice.Proofs.Text.Ends
import CoreSplice.Proofs.Text.Literal
import CoreSplice.Proofs.SymbolMap.Line
import CoreSplice.Proofs.Elf.Rewriting
import CoreSplice.Proofs.Elf.Bounds
import CoreSplice.Proofs.Injection.Stages
import CoreSplice.Proofs.Override.Walks
import CoreSplice.Proofs.Text.Numeral
import CoreSplice.Proofs.Override.Form
import CoreSplice.Proofs.Override.RoundTrip
import CoreSplice.Proofs.Command.Precedence
import CoreSplice.Proofs.Text.Utf8
import CoreSplice.Proofs.SymbolMap.Storage
import CoreSplice.Proofs.Injection.Advice
import CoreSplice.Proofs.Injection.Records
