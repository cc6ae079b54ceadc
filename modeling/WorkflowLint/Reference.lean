/-
Reference texts for editors: the functions of the expression language and the keys of workflow definitions.
-/

namespace WorkflowLint.Reference

structure FunctionEntry where
  name : String
  signature : String
  documentation : String
deriving DecidableEq, Repr

structure KeyEntry where
  key : String
  documentation : String
deriving DecidableEq, Repr

/-- the functions of the expression language -/
def functions : List FunctionEntry :=
  [ ⟨"map", "map(list, func)", "Applies the `func` function to each element in the list and returns a new list."⟩,
    ⟨"filter",
      "filter(list, predicate)",
      "Filters the elements of the list according to the predicate, returning those for which it is true."⟩,
    ⟨"tasks",
      "tasks(execution_id=null, recursive=false, state=null, flat=false)",
      "Returns tasks matching criteria (execution, status, etc.)."⟩,
    ⟨"executions",
      "executions(id=null, root_execution_id=null, state=null, from_time=null, to_time=null)",
      "Return the executions filtered by id, state or date."⟩,
    ⟨"task", "task(name)", "Return the task named (or null if absent)."⟩,
    ⟨"execution", "execution()", "Return the current execution details."⟩,
    ⟨"env", "env()", "Return the execution environment variables."⟩,
    ⟨"global", "global(name)", "Return the global variable named (or null if absent)."⟩,
    ⟨"bool", "bool(value)", "Converts a value to boolean (0/\"\" => false)."⟩,
    ⟨"isBoolean", "isBoolean(value)", "Returns true if value is a boolean."⟩,
    ⟨"isString", "isString(value)", "Returns true if value is a string."⟩,
    ⟨"isInteger", "isInteger(value)", "Returns true if value is an integer."⟩,
    ⟨"isNumber", "isNumber(value)", "Returns true if value is numeric."⟩,
    ⟨"isList", "isList(value)", "Returns true if value is a list."⟩,
    ⟨"isDict", "isDict(value)", "Returns true if value is a dictionary."⟩,
    ⟨"isSet", "isSet(value)", "Returns true if value is a set."⟩,
    ⟨"isDatetime", "isDatetime(value)", "Returns true if value is a datetime object."⟩,
    ⟨"isTimespan", "isTimespan(value)", "Returns true if value is a timespan object."⟩,
    ⟨"isRegex", "isRegex(value)", "Returns true if value is a regex object."⟩,
    ⟨"abs", "abs(number)", "Returns the absolute value of the number."⟩,
    ⟨"float", "float(value)", "Converts number or string to floating-point."⟩,
    ⟨"int", "int(value)", "Converts value (number/string/null) to integer."⟩,
    ⟨"max", "max(a, b)", "Returns the maximum of two numbers."⟩,
    ⟨"min", "min(a, b)", "Returns the minimum of two numbers."⟩,
    ⟨"bitwiseAnd", "bitwiseAnd(x, y)", "Returns bitwise AND of two integers."⟩,
    ⟨"bitwiseOr", "bitwiseOr(x, y)", "Returns bitwise OR of two integers."⟩,
    ⟨"bitwiseXor", "bitwiseXor(x, y)", "Returns bitwise XOR of two integers."⟩,
    ⟨"bitwiseNot", "bitwiseNot(x)", "Returns bitwise NOT of the integer."⟩,
    ⟨"add", "add(set, ...values)", "Adds values to a set, returning new set."⟩,
    ⟨"contains", "contains(coll, val)", "Returns true if collection contains value."⟩,
    ⟨"containsKey", "containsKey(dict, key)", "Returns true if dictionary has key."⟩,
    ⟨"containsValue", "containsValue(dict, val)", "Returns true if dictionary has value."⟩,
    ⟨"delete", "delete(coll, idx, count=1)", "Removes elements by index and count."⟩,
    ⟨"deleteAll", "deleteAll(dict, keys)", "Removes given keys from dictionary."⟩,
    ⟨"dict", "dict(k1=>v1, ...)", "Creates dictionary from key=>value pairs."⟩,
    ⟨"difference", "difference(s1, s2)", "Returns elements in s1 not in s2."⟩,
    ⟨"union", "union(s1, s2)", "Returns union of two sets."⟩,
    ⟨"intersect", "intersect(s1, s2)", "Returns intersection of two sets."⟩,
    ⟨"flatten", "flatten(coll)", "Flattens nested collections into one list."⟩,
    ⟨"get", "get(dict, key, default)", "Returns dict[key] or default if missing."⟩,
    ⟨"insert", "insert(list, idx, val)", "Inserts value into list at index."⟩,
    ⟨"insertMany", "insertMany(list, idx, vs)", "Inserts multiple values into list."⟩,
    ⟨"items", "items(dict)", "Returns list of [key,value] pairs."⟩,
    ⟨"keys", "keys(dict)", "Returns list of dictionary keys."⟩,
    ⟨"len", "len(coll)", "Returns length of any collection or string."⟩,
    ⟨"list", "list(v1, v2, ...)", "Creates a list from provided values."⟩,
    ⟨"sequence", "sequence(start=0, step=1)", "Generates infinite sequence by step."⟩,
    ⟨"first", "first(coll)", "Returns first element or default if empty."⟩,
    ⟨"last", "last(coll)", "Returns last element or default if empty."⟩,
    ⟨"indexOf", "indexOf(coll, val)", "Returns first index of value or -1."⟩,
    ⟨"indexWhere", "indexWhere(coll, pred)", "Returns first index matching predicate."⟩,
    ⟨"lastIndexOf", "lastIndexOf(coll, val)", "Returns last index of value or -1."⟩,
    ⟨"lastIndexWhere", "lastIndexWhere(coll,p)", "Returns last index matching predicate."⟩,
    ⟨"distinct", "distinct(coll)", "Returns unique elements from collection."⟩,
    ⟨"reverse", "reverse(coll)", "Returns elements in reverse order."⟩,
    ⟨"where", "where(coll, pred)", "Filters collection by predicate."⟩,
    ⟨"select", "select(coll, fn)", "Applies fn to each element."⟩,
    ⟨"selectMany", "selectMany(coll, fn)", "Maps and flattens results."⟩,
    ⟨"join", "join(c1, c2, cond)", "Joins two collections by condition."⟩,
    ⟨"aggregate", "aggregate(coll, fn)", "Cumulatively aggregates collection elements."⟩,
    ⟨"sum", "sum(coll)", "Sums all numeric elements."⟩,
    ⟨"skip", "skip(coll, count)", "Skips first count elements."⟩,
    ⟨"skipWhile", "skipWhile(coll, pred)", "Skips while predicate is true."⟩,
    ⟨"takeWhile", "takeWhile(coll, pred)", "Takes while predicate is true."⟩,
    ⟨"slice", "slice(coll, length)", "Splits into sublists of given length."⟩,
    ⟨"sliceWhere", "sliceWhere(coll, pred)", "Splits when predicate value changes."⟩,
    ⟨"splitAt", "splitAt(coll, idx)", "Splits into two lists at index."⟩,
    ⟨"splitWhere", "splitWhere(coll, pred)", "Splits at elements where predicate true."⟩,
    ⟨"single", "single(coll)", "Returns sole element or throws if multiple."⟩,
    ⟨"orderBy", "orderBy(coll, sel)", "Sorts ascending by selector."⟩,
    ⟨"orderByDescending", "orderByDescending(coll,sel)", "Sorts descending by selector."⟩,
    ⟨"zip", "zip(...colls)", "Groups nth elements into tuples."⟩,
    ⟨"zipLongest", "zipLongest(...colls)", "Like zip but up to longest collection."⟩,
    ⟨"characters", "characters(options)", "Returns list of chars per categories."⟩,
    ⟨"concat", "concat(s1, s2, ...)", "Concatenates all strings into one."⟩,
    ⟨"endsWith", "endsWith(str, suffix)", "Returns true if string ends with suffix."⟩,
    ⟨"startsWith", "startsWith(str, prefix)", "Returns true if string starts with prefix."⟩,
    ⟨"toLower", "toLower(str)", "Converts string to lowercase."⟩,
    ⟨"toUpper", "toUpper(str)", "Converts string to uppercase."⟩,
    ⟨"trim", "trim(str)", "Trims whitespace from both ends."⟩,
    ⟨"trimLeft", "trimLeft(str)", "Trims whitespace from start."⟩,
    ⟨"trimRight", "trimRight(str)", "Trims whitespace from end."⟩,
    ⟨"joinStrings", "join(list, separator)", "Joins list with separator into string."⟩,
    ⟨"regex", "regex(pattern, ignoreCase, multiLine, dotAll)", "Compiles regex object from pattern."⟩,
    ⟨"escapeRegex", "escapeRegex(str)", "Escapes special regex chars in string."⟩,
    ⟨"matches", "matches(input, pattern)", "Returns true if input matches pattern."⟩,
    ⟨"replaceBy", "replaceBy(input, mapping)", "Replaces matches via mapping function."⟩,
    ⟨"search", "search(regex, string)", "Returns first substring matching regex."⟩,
    ⟨"datetime", "datetime(year, month, day, ...)", "Creates or converts to datetime object."⟩,
    ⟨"format", "format(datetime, formatString)", "Formats datetime with given pattern."⟩,
    ⟨"now", "now(offset=timespan(0))", "Returns current datetime (with offset)."⟩,
    ⟨"timespan", "timespan(days, hours, ...)", "Creates timespan object from units."⟩,
    ⟨"localtz", "localtz()", "Returns local timezone offset."⟩,
    ⟨"utctz", "utctz()", "Returns UTC timezone offset (zero)."⟩,
    ⟨"assert", "assert(obj, cond, msg)", "Returns obj if cond true, else throws error."⟩,
    ⟨"call", "call(fn, args, kwargs)", "Invokes function with provided args."⟩,
    ⟨"let", "let(...values)", "Stores and returns values for chaining."⟩,
    ⟨"switch", "switch(cond1=>v1, ..., default)", "Returns value of first true condition."⟩ ]

/-- the keys of workflow definitions -/
def keys : List KeyEntry :=
  [ ⟨"version", "Mistral DSL version (must be '2.0')."⟩,
    ⟨"type", "Workflow type: 'direct' or 'reverse'."⟩,
    ⟨"description", "Free text description of workflow or task."⟩,
    ⟨"input", "Input parameters for workflow or task."⟩,
    ⟨"vars", "Initial global variables for the workflow."⟩,
    ⟨"output", "Workflow output structure via expressions."⟩,
    ⟨"output-on-error", "Workflow output in case of error."⟩,
    ⟨"task-defaults", "Default values applied to all tasks."⟩,
    ⟨"tasks", "List of tasks in the workflow."⟩,
    ⟨"action", "Name of the action executed by the task."⟩,
    ⟨"workflow", "Name of the sub-workflow to call."⟩,
    ⟨"publish", "Variables published for subsequent tasks."⟩,
    ⟨"publish-on-error", "Variables published only on error."⟩,
    ⟨"input_task", "Input arguments for action or sub-workflow."⟩,
    ⟨"with-items", "Iterates the task over a collection."⟩,
    ⟨"keep-result", "Retains or discards the task result."⟩,
    ⟨"target", "Target executor for this task."⟩,
    ⟨"pause-before", "Pause before executing the task."⟩,
    ⟨"wait-before", "Delay before starting the task (seconds)."⟩,
    ⟨"wait-after", "Delay after task completion (seconds)."⟩,
    ⟨"fail-on", "Condition to force task failure."⟩,
    ⟨"timeout", "Maximum task runtime duration (seconds)."⟩,
    ⟨"concurrency", "Maximum parallel executions of the task."⟩,
    ⟨"retry", "Retry policy on task failure."⟩,
    ⟨"safe-rerun", "Allows safe rerun if executor dies."⟩,
    ⟨"on-success", "Tasks to run on success."⟩,
    ⟨"on-error", "Tasks to run on error."⟩,
    ⟨"on-complete", "Tasks to run regardless of outcome."⟩,
    ⟨"requires", "List of prerequisite tasks (dependencies)."⟩,
    ⟨"join", "Synchronization condition for parallel branches."⟩ ]

/-- what is shown for a word: a function's signature and documentation, else a key's documentation -/
def hover? (word : String) : Option String :=
  match functions.find? fun entry => entry.name == word with
  | some entry => some (entry.signature ++ "\n\n" ++ entry.documentation)
  | none => (keys.find? fun entry => entry.key == word).map KeyEntry.documentation

end WorkflowLint.Reference
