/-
A calculator for integer arithmetic: lexer, parser, evaluator, tree outlines and an interactive
shell.
-/

import Calculator.Lexer.Session
import Calculator.Main
import Calculator.Node.Exact
import Calculator.Node.Normal
import Calculator.Parser.Session
import Calculator.Proofs.Evaluation.Division
import Calculator.Proofs.Evaluation.Exact
import Calculator.Proofs.Evaluation.Machine
import Calculator.Proofs.Evaluation.Safety
import Calculator.Proofs.Lexer.Overlong
import Calculator.Proofs.Lexer.Segmentation
import Calculator.Proofs.Lexer.Session
import Calculator.Proofs.Lexer.Tokens
import Calculator.Proofs.Lexer.Values
import Calculator.Proofs.Lexer.Visible
import Calculator.Proofs.Node.Tokens
import Calculator.Proofs.Outline.Layout
import Calculator.Proofs.Outline.Unambiguous
import Calculator.Proofs.Parser.Acceptance
import Calculator.Proofs.Parser.Cascade
import Calculator.Proofs.Parser.Disguise
import Calculator.Proofs.Parser.Layout
import Calculator.Proofs.Parser.Placeholders
import Calculator.Proofs.Parser.Reparse
import Calculator.Proofs.Parser.Restoration
import Calculator.Proofs.Parser.Session
import Calculator.Proofs.Parser.Shape
import Calculator.Proofs.Parser.Spacing
import Calculator.Proofs.Parser.Steps
import Calculator.Proofs.Parser.Trace
import Calculator.Proofs.Parser.Trees
import Calculator.Proofs.Shell.Colors
import Calculator.Proofs.Shell.Faults
import Calculator.Proofs.Shell.Session
import Calculator.Proofs.Text.Quoted
