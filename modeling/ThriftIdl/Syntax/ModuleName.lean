/-!
# The module name of an included file

Declarations of an included file are referred to by the name of the file, without its directories
and without the suffix of interface files.
-/

namespace ThriftIdl

/-- Whether a character separates the directories of a path. -/
def isPathSeparator (char : Char) : Bool :=
  char == '/' || char == '\\'

/-- The suffix of the names of interface files. -/
def fileSuffix : List Char := ".thrift".toList

/-- The module name of a path: what follows its last separator, without one suffix. -/
def moduleName (path : String) : String :=
  let file := (path.toList.reverse.takeWhile fun char => !isPathSeparator char).reverse
  String.ofList <|
    if fileSuffix.isSuffixOf file then file.take (file.length - fileSuffix.length) else file

end ThriftIdl
