import EnumConverter.Text.Line

namespace EnumConverter

/-- The lines of a document with all defaults. -/
def settingsTemplateLines : List String :=
  [ "# cpp-codegen configuration file"
  , ""
  , "[output]"
  , "# Output directory for generated converters"
  , "dir = \"./generated\""
  , ""
  , "# Subdirectory of `dir` for generated files, also used in #include lines"
  , "include_prefix = \"converters\""
  , ""
  , "# Extensions of generated files"
  , "header_extension = \"hpp\""
  , "source_extension = \"cpp\""
  , ""
  , "# Name files after the enum (\"short\") or its qualified path (\"qualified\")"
  , "file_naming = \"short\""
  , ""
  , "# Keep file names as written (\"preserve\") or convert them (\"snake\")"
  , "file_case = \"preserve\""
  , ""
  , "# Indentation of generated code (\"spaces2\", \"spaces4\", \"tabs\")"
  , "indent = \"spaces4\""
  , ""
  , "[annotation]"
  , "# Documentation comment marker that opts an enum in"
  , "marker = \"@cpp_codegen\""
  , ""
  , "# Drop declarations that carry an unknown directive"
  , "strict_directives = false"
  , ""
  , "[scan]"
  , "# Header extensions to scan"
  , "extensions = [\"h\", \"hh\", \"hpp\", \"hxx\"]"
  , ""
  , "# Skip files whose name starts with one of these prefixes"
  , "skip_prefixes = [\"test_\"]"
  , ""
  , "# Respect .gitignore files"
  , "respect_gitignore = true" ]

/-- A document with all defaults. -/
def settingsTemplate : String :=
  Text.joined "" (settingsTemplateLines.map (· ++ "\n"))

end EnumConverter
