import StackMachine.Main
import StackMachine.Proofs.IdealMachine
import StackMachine.Proofs.Canonical
import StackMachine.Proofs.Landings
import StackMachine.Proofs.Decoded
import StackMachine.Proofs.Reachability
import StackMachine.Proofs.CanonicalPrograms
import StackMachine.Proofs.Concatenation
import StackMachine.Proofs.StepLimits
import StackMachine.Proofs.Transfers
import StackMachine.Proofs.LineEnds
import StackMachine.Proofs.Sessions
import StackMachine.Proofs.FailingWriters
import StackMachine.Proofs.Histories
import StackMachine.Proofs.LineByLine
import StackMachine.Proofs.Calls
import StackMachine.Proofs.RunImages
import StackMachine.Proofs.Relocations
import StackMachine.Proofs.StackBases
import StackMachine.Proofs.Renamings
import StackMachine.Proofs.UnnamedCells
import StackMachine.Proofs.Blocks
import StackMachine.Proofs.Factorial
import StackMachine.Proofs.Halting
import StackMachine.Proofs.RoundCounts
import StackMachine.Proofs.ForwardPrograms
import StackMachine.Proofs.Accounts
import StackMachine.Proofs.InstructionTable
import StackMachine.Proofs.Operations
import StackMachine.Proofs.Records
import StackMachine.Proofs.Grammar
import StackMachine.Proofs.Postfix
import StackMachine.Proofs.Branches
import StackMachine.Proofs.ListingTexts
import StackMachine.Proofs.SavedForms
import StackMachine.Proofs.Keywords
import StackMachine.Proofs.JumpRanges
import StackMachine.Proofs.CanonicalTexts
