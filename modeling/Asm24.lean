import Asm24.Main
import Asm24.Proofs.RoundTrip
import Asm24.Proofs.Addresses
import Asm24.Proofs.LastBlocks
import Asm24.Proofs.Canonical
import Asm24.Proofs.LastBody
import Asm24.Proofs.Renaming
import Asm24.Proofs.Steps
import Asm24.Proofs.Inert
import Asm24.Proofs.Failure
import Asm24.Proofs.Spacing
import Asm24.Proofs.ImageListing
import Asm24.Proofs.Rendering
import Asm24.Proofs.Reference
import Asm24.Proofs.LiteralRange
import Asm24.Proofs.DataLayout
import Asm24.Proofs.Gathering
import Asm24.Proofs.Sectioning
import Asm24.Proofs.Resuming
import Asm24.Proofs.FirstFailure
import Asm24.Proofs.Dump
import Asm24.Proofs.Symbols
import Asm24.Proofs.Sources
import Asm24.Proofs.OutputDirectory
import Asm24.Proofs.Buffering
import Asm24.Proofs.LexicalClasses
