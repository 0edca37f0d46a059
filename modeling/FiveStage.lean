import FiveStage.Isa.Encoding
import FiveStage.Main
import FiveStage.Sequential
import FiveStage.Proofs.CycleAccuracy
import FiveStage.Proofs.Semantics
import FiveStage.Proofs.Refinement
import FiveStage.Proofs.Stall
import FiveStage.Proofs.FetchOrder
import FiveStage.Proofs.Accounting
import FiveStage.Proofs.ByteMap
import FiveStage.Proofs.Layout
import FiveStage.Proofs.Budget
import FiveStage.Proofs.Stopped
import FiveStage.Proofs.Image
import FiveStage.Proofs.Recognition
import FiveStage.Proofs.Refusal
import FiveStage.Isa.Assembler
import FiveStage.Proofs.Assembling
import FiveStage.Proofs.AssemblyText
import FiveStage.Proofs.Disassembly
import FiveStage.Proofs.Validity
import FiveStage.Proofs.Startup
import FiveStage.Proofs.Log
import FiveStage.Proofs.Views
import FiveStage.Json.Grammar
import FiveStage.Proofs.Reading
import FiveStage.Proofs.Document
