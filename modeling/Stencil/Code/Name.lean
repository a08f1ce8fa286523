/-! The names that generated code gives to what templates name. -/
namespace Stencil.Code

def keywords : List String := [
  "False", "None", "True", "and", "as", "assert", "async", "await", "break", "class", "continue",
  "def", "del", "elif", "else", "except", "finally", "for", "from", "global", "if", "import", "in",
  "is", "lambda", "nonlocal", "not", "or", "pass", "raise", "return", "try", "while", "with",
  "yield"]

def isKeyword (s : String) : Bool := keywords.contains s

/-- Names that mean something in every module. -/
def builtinNames : List String := [
  "ArithmeticError", "AssertionError", "AttributeError", "BaseException", "BaseExceptionGroup",
  "BlockingIOError", "BrokenPipeError", "BufferError", "BytesWarning", "ChildProcessError",
  "ConnectionAbortedError", "ConnectionError", "ConnectionRefusedError", "ConnectionResetError",
  "DeprecationWarning", "EOFError", "EncodingWarning", "EnvironmentError", "Exception",
  "ExceptionGroup", "FileExistsError", "FileNotFoundError", "FloatingPointError", "FutureWarning",
  "GeneratorExit", "IOError", "ImportError", "ImportWarning", "IndentationError", "IndexError",
  "InterruptedError", "IsADirectoryError", "KeyError", "KeyboardInterrupt", "LookupError",
  "MemoryError", "ModuleNotFoundError", "NameError", "NotADirectoryError", "NotImplementedError",
  "OSError", "OverflowError", "PendingDeprecationWarning", "PermissionError", "ProcessLookupError",
  "RecursionError", "ReferenceError", "ResourceWarning", "RuntimeError", "RuntimeWarning",
  "StopAsyncIteration", "StopIteration", "SyntaxError", "SyntaxWarning", "SystemError",
  "SystemExit", "TabError", "TimeoutError", "TypeError", "UnboundLocalError",
  "UnicodeDecodeError", "UnicodeEncodeError", "UnicodeError", "UnicodeTranslateError",
  "UnicodeWarning", "UserWarning", "ValueError", "Warning", "ZeroDivisionError",
  "Ellipsis", "False", "None", "NotImplemented", "True", "__build_class__", "__debug__", "__doc__",
  "__import__", "__loader__", "__name__", "__package__", "__spec__",
  "abs", "aiter", "all", "anext", "any", "ascii", "bin", "bool", "breakpoint", "bytearray",
  "bytes", "callable", "chr", "classmethod", "compile", "complex", "copyright", "credits",
  "delattr", "dict", "dir", "divmod", "enumerate", "eval", "exec", "exit", "filter", "float",
  "format", "frozenset", "getattr", "globals", "hasattr", "hash", "help", "hex", "id", "input",
  "int", "isinstance", "issubclass", "iter", "len", "license", "list", "locals", "map", "max",
  "memoryview", "min", "next", "object", "oct", "open", "ord", "pow", "print", "property", "quit",
  "range", "repr", "reversed", "round", "set", "setattr", "slice", "sorted", "staticmethod", "str",
  "sum", "super", "tuple", "type", "vars", "zip"]

/-- A template variable as a variable of the code: keywords get an underscore. -/
def identifier (name : String) : String := if isKeyword name then name ++ "_" else name

/-- Names of filters and tests that cannot stand as they are: keywords and builtin names. -/
def isReserved (name : String) : Bool := isKeyword name || builtinNames.contains name

/-- A filter or test as an attribute of the module that declares it. -/
def runtimeAttribute (name : String) : String := if isReserved name then name ++ "_" else name

def blockStem : String := "_jt_block_"

def superSuffix : String := "__super"

/-- As many times the suffix as there are levels. -/
def superSuffixes : Nat → String
  | 0 => ""
  | n + 1 => superSuffixes n ++ superSuffix

/-- The function of the block's definition that lies `level` parents up. -/
def blockFunction (name : String) (level : Nat) : String := blockStem ++ name ++ superSuffixes level

/-- A variable of the context section. -/
def declaration (name type : String) : String :=
  identifier name ++ ": " ++ type

def anyType : String := "typing.Any"

end Stencil.Code
