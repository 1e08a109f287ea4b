import TurboBench.Shell.Tool
import TurboBench.Text.Lines

/-!
The sample programs that the workbench comes with, each a text of whole lines.
-/

namespace TurboBench.Shell.Bundled

open TurboBench.Text (joinLines)

/-- A text of whole lines. -/
def text (lines : List String) : String :=
  joinLines lines ++ "\n"

/-- Adds two numbers. -/
def addListing : String := text [
  ".model small",
  ".stack 100h",
  ".data",
  "    msg db 'Sum is in AX', 0dh, 0ah, '$'",
  ".code",
  "    mov ax, @data",
  "    mov ds, ax",
  "",
  "    ; ax = 25 + 17",
  "    mov ax, 25",
  "    mov bx, 17",
  "    add ax, bx",
  "    push ax",
  "",
  "    mov ah, 09h",
  "    mov dx, offset msg",
  "    int 21h",
  "",
  "    pop ax",
  "    mov ah, 4ch",
  "    int 21h",
  "end"]

/-- Computes a factorial by repeated addition. -/
def factorialListing : String := text [
  ".model small",
  ".stack 100h",
  ".data",
  "    msg db 'Factorial of 5 is in AX', 0dh, 0ah, '$'",
  ".code",
  "    ; ax = 5! using repeated addition",
  "    mov ax, 1",
  "    mov cx, 5",
  "",
  "outer:",
  "    mov bx, ax",
  "    mov dx, cx",
  "    mov ax, 0",
  "inner:",
  "    add ax, bx",
  "    sub dx, 1",
  "    cmp dx, 0",
  "    jne inner",
  "",
  "    sub cx, 1",
  "    cmp cx, 1",
  "    jne outer",
  "",
  "    mov ah, 4ch",
  "    int 21h",
  "end"]

/-- Prints a greeting. -/
def helloListing : String := text [
  ".model small",
  ".stack 100h",
  ".data",
  "    message db 'Hello, World!', 0dh, 0ah, '$'",
  ".code",
  "    mov ax, @data",
  "    mov ds, ax",
  "",
  "    ; print the message",
  "    mov ah, 09h",
  "    mov dx, offset message",
  "    int 21h",
  "",
  "    ; exit to DOS",
  "    mov ah, 4ch",
  "    int 21h",
  "end"]

/-- Computes with two numbers as the user chooses. -/
def calculatorProgram : String := text [
  "program Calculator;",
  "var",
  "    a, b: integer;",
  "    choice: char;",
  "begin",
  "    writeln('Simple Calculator');",
  "    writeln('Enter first number: ');",
  "    readln(a);",
  "    writeln('Enter second number: ');",
  "    readln(b);",
  "    writeln('Choose operation (+, -, *, /): ');",
  "    readln(choice);",
  "",
  "    case choice of",
  "        '+': writeln('Result: ', a + b);",
  "        '-': writeln('Result: ', a - b);",
  "        '*': writeln('Result: ', a * b);",
  "        '/': if b <> 0 then writeln('Result: ', a / b:0:2) else writeln('Division by zero!');",
  "    else",
  "        writeln('Invalid operation');",
  "    end;",
  "end."]

/-- Computes the factorial of a number. -/
def factorialProgram : String := text [
  "program Factorial;",
  "var",
  "    n, i, fact: integer;",
  "begin",
  "    writeln('Enter a number: ');",
  "    readln(n);",
  "    fact := 1;",
  "",
  "    for i := 1 to n do",
  "        fact := fact * i;",
  "",
  "    writeln('Factorial of ', n, ' is ', fact);",
  "end."]

/-- Prints a greeting. -/
def helloProgram : String := text [
  "program HelloWorld;",
  "begin",
  "    writeln('Hello, World!');",
  "    writeln('Welcome to Turbo Pascal!');",
  "end."]

/-- The samples for a tool, each with its name. -/
def samples : Tool → List (String × String)
  | .assembler => [("add", addListing), ("factorial", factorialListing), ("hello", helloListing)]
  | .pascal =>
    [("calculator", calculatorProgram), ("factorial", factorialProgram), ("hello", helloProgram)]

end TurboBench.Shell.Bundled
