import EnumConverter.Main
import EnumConverter.Proofs.Body.Attached
import EnumConverter.Proofs.Body.Comparison
import EnumConverter.Proofs.Build.Accounts
import EnumConverter.Proofs.Build.Errors
import EnumConverter.Proofs.Build.Located
import EnumConverter.Proofs.Build.Strict
import EnumConverter.Proofs.Command.Rerun
import EnumConverter.Proofs.CommentFree.Outline
import EnumConverter.Proofs.CommentGroup.Build
import EnumConverter.Proofs.Confined.File
import EnumConverter.Proofs.Document.Outline
import EnumConverter.Proofs.Emit.Faithful
import EnumConverter.Proofs.Emit.ReadBack
import EnumConverter.Proofs.Generate.Collision
import EnumConverter.Proofs.Generate.FileOrder
import EnumConverter.Proofs.Indexed.Build
import EnumConverter.Proofs.Inert.File
import EnumConverter.Proofs.Lexer.Partition
import EnumConverter.Proofs.Lexer.Trailing
import EnumConverter.Proofs.LineEnd.Build
import EnumConverter.Proofs.Override.Sound
import EnumConverter.Proofs.Placed.Prologue
import EnumConverter.Proofs.Printing.Build
import EnumConverter.Proofs.Project.Written
import EnumConverter.Proofs.Scan.Provenance
import EnumConverter.Proofs.Scan.ScopeMoves
import EnumConverter.Proofs.Spelling.Opaque
import EnumConverter.Proofs.Statement.Outline
