import CodeShare.Text.Json

/-! # The generated Python script

`templateHead`, the placeholder lines and `templateTail` are the harness template, line by line;
`buildPythonHarness` fills it with seven replacements in the order of the source.
-/

namespace CodeShare.Harness
set_option autoImplicit false

def newline : ℕ := 10

def pythonLines (lines : List String) : JsString := lines.flatMap fun line => js line ++ [newline]

/-! ## The template -/

/-- A placeholder is a name in braces. -/
def placeholder (name : String) : JsString := 123 :: (js name ++ [125])

def userStdoutLimitMark : JsString := placeholder "user_stdout_limit"
def caseErrorLimitMark : JsString := placeholder "case_error_limit"
def harnessPayloadLimitMark : JsString := placeholder "harness_payload_limit"
def userCodeMark : JsString := placeholder "user_code_json"
def testCasesMark : JsString := placeholder "test_cases_json"
def methodNameMark : JsString := placeholder "method_name_json"
def nonceMark : JsString := placeholder "nonce_json"

def templateHead : JsString := pythonLines
  ["import __future__",
   "import builtins as _builtins",
   "import json as _json",
   "import os as _os",
   "import subprocess as _subprocess",
   "import sys as _sys",
   "import time as _time",
   "import traceback as _traceback",
   "",
   "_JSON_DUMPS = _json.dumps",
   "_JSON_LOADS = _json.loads",
   "_TRACEBACK_FORMAT_EXC = _traceback.format_exc",
   "_PERF_COUNTER = _time.perf_counter",
   "_REPR = repr",
   "_COMPILE = compile",
   "_EXEC = exec",
   "_REAL_IMPORT = _builtins.__import__"]

/-- Everything behind the nonce. -/
def templateTail : JsString := newline :: pythonLines
  ["",
   "_DENIED_IMPORT_ROOTS = \x7b",
   "    \"ctypes\",",
   "    \"importlib\",",
   "    \"inspect\",",
   "    \"multiprocessing\",",
   "    \"os\",",
   "    \"subprocess\",",
   "    \"sys\",",
   "\x7d",
   "",
   "_SAFE_BUILTIN_NAMES = (",
   "    \"__build_class__\",",
   "    \"abs\",",
   "    \"all\",",
   "    \"any\",",
   "    \"ArithmeticError\",",
   "    \"AttributeError\",",
   "    \"BaseException\",",
   "    \"bool\",",
   "    \"bytes\",",
   "    \"callable\",",
   "    \"chr\",",
   "    \"classmethod\",",
   "    \"complex\",",
   "    \"dict\",",
   "    \"divmod\",",
   "    \"enumerate\",",
   "    \"Exception\",",
   "    \"filter\",",
   "    \"float\",",
   "    \"format\",",
   "    \"frozenset\",",
   "    \"hash\",",
   "    \"hex\",",
   "    \"id\",",
   "    \"IndexError\",",
   "    \"int\",",
   "    \"isinstance\",",
   "    \"issubclass\",",
   "    \"iter\",",
   "    \"KeyError\",",
   "    \"len\",",
   "    \"list\",",
   "    \"LookupError\",",
   "    \"map\",",
   "    \"max\",",
   "    \"min\",",
   "    \"NameError\",",
   "    \"next\",",
   "    \"NotImplemented\",",
   "    \"NotImplementedError\",",
   "    \"object\",",
   "    \"ord\",",
   "    \"pow\",",
   "    \"print\",",
   "    \"property\",",
   "    \"range\",",
   "    \"repr\",",
   "    \"reversed\",",
   "    \"round\",",
   "    \"RuntimeError\",",
   "    \"set\",",
   "    \"slice\",",
   "    \"sorted\",",
   "    \"staticmethod\",",
   "    \"StopIteration\",",
   "    \"str\",",
   "    \"sum\",",
   "    \"super\",",
   "    \"tuple\",",
   "    \"type\",",
   "    \"TypeError\",",
   "    \"ValueError\",",
   "    \"ZeroDivisionError\",",
   "    \"zip\",",
   ")",
   "",
   "",
   "class _BoundedStdout:",
   "    def __init__(self, limit):",
   "        self._limit = limit",
   "        self._size = 0",
   "        self._parts = []",
   "        self.truncated = False",
   "",
   "    def write(self, value):",
   "        text = str(value)",
   "        remaining = self._limit - self._size",
   "        if remaining > 0:",
   "            chunk = text[:remaining]",
   "            self._parts.append(chunk)",
   "            self._size += len(chunk)",
   "        if len(text) > remaining:",
   "            self.truncated = True",
   "        return len(text)",
   "",
   "    def flush(self):",
   "        return None",
   "",
   "    def getvalue(self):",
   "        return \"\".join(self._parts)",
   "",
   "",
   "def _truncate_text(value, limit):",
   "    text = str(value)",
   "    if len(text) <= limit:",
   "        return text, False",
   "    return text[:limit], True",
   "",
   "",
   "def _safe_repr(value):",
   "    try:",
   "        text = _REPR(value)",
   "    except BaseException:",
   "        text = \"<unrepresentable>\"",
   "    return _truncate_text(text, _CASE_ERROR_LIMIT)[0]",
   "",
   "",
   "def _guarded_import(name, globals=None, locals=None, fromlist=(), level=0):",
   "    root = name.split(\".\", 1)[0]",
   "    if root in _DENIED_IMPORT_ROOTS:",
   "        raise ImportError(f\"Import of \x7broot\x7d is not available during execution\")",
   "    return _REAL_IMPORT(name, globals, locals, fromlist, level)",
   "",
   "",
   "def _safe_builtins():",
   "    safe = \x7bname: getattr(_builtins, name) for name in _SAFE_BUILTIN_NAMES\x7d",
   "    safe[\"__import__\"] = _guarded_import",
   "    return safe",
   "",
   "",
   "def _compile_user_code(user_code):",
   "    return _COMPILE(",
   "        user_code,",
   "        \"script.py\",",
   "        \"exec\",",
   "        flags=__future__.annotations.compiler_flag,",
   "        dont_inherit=True,",
   "    )",
   "",
   "",
   "def _execute_user_module(user_code):",
   "    user_globals = \x7b",
   "        \"__builtins__\": _safe_builtins(),",
   "        \"__file__\": \"script.py\",",
   "        \"__name__\": \"__main__\",",
   "    \x7d",
   "    compiled_user_code = _compile_user_code(user_code)",
   "    _EXEC(compiled_user_code, user_globals)",
   "    return user_globals",
   "",
   "",
   "def _case_error_result(index, elapsed_ms, error):",
   "    truncated_error, is_truncated = _truncate_text(error, _CASE_ERROR_LIMIT)",
   "    result = \x7b",
   "        \"index\": index,",
   "        \"status\": \"error\",",
   "        \"elapsed_ms\": elapsed_ms,",
   "        \"error\": truncated_error,",
   "    \x7d",
   "    if is_truncated:",
   "        result[\"error_truncated\"] = True",
   "    return result",
   "",
   "",
   "def _child_failure_result(index, message):",
   "    return _case_error_result(index, 0, message)",
   "",
   "",
   "def _child_preflight(payload):",
   "    try:",
   "        _execute_user_module(payload[\"user_code\"])",
   "        return \x7b\"status\": \"ok\"\x7d",
   "    except SyntaxError:",
   "        error, truncated = _truncate_text(_TRACEBACK_FORMAT_EXC(), _CASE_ERROR_LIMIT)",
   "        result = \x7b\"status\": \"syntax_error\", \"error\": error\x7d",
   "        if truncated:",
   "            result[\"error_truncated\"] = True",
   "        return result",
   "    except BaseException:",
   "        error, truncated = _truncate_text(_TRACEBACK_FORMAT_EXC(), _CASE_ERROR_LIMIT)",
   "        result = \x7b\"status\": \"runtime_error\", \"error\": error\x7d",
   "        if truncated:",
   "            result[\"error_truncated\"] = True",
   "        return result",
   "",
   "",
   "def _child_case(payload, stdout_capture):",
   "    index = payload[\"index\"]",
   "    start = _PERF_COUNTER()",
   "    try:",
   "        user_globals = _execute_user_module(payload[\"user_code\"])",
   "        solution_class = user_globals[\"Solution\"]",
   "        solution = solution_class()",
   "        method = getattr(solution, payload[\"method_name\"])",
   "        got = method(**payload[\"input\"])",
   "        elapsed = (_PERF_COUNTER() - start) * 1000",
   "        try:",
   "            got_json = _JSON_LOADS(_JSON_DUMPS(got, allow_nan=False))",
   "            result = \x7b",
   "                \"index\": index,",
   "                \"status\": \"ok\",",
   "                \"elapsed_ms\": elapsed,",
   "                \"got_json\": got_json,",
   "                \"got_repr\": _safe_repr(got),",
   "            \x7d",
   "        except (TypeError, ValueError):",
   "            result = \x7b",
   "                \"index\": index,",
   "                \"status\": \"unserializable\",",
   "                \"elapsed_ms\": elapsed,",
   "                \"got_repr\": _safe_repr(got),",
   "            \x7d",
   "    except BaseException:",
   "        elapsed = (_PERF_COUNTER() - start) * 1000",
   "        result = _case_error_result(index, elapsed, _TRACEBACK_FORMAT_EXC())",
   "",
   "    return \x7b",
   "        \"status\": \"ok\",",
   "        \"result\": result,",
   "        \"user_stdout\": stdout_capture.getvalue(),",
   "        \"user_stdout_truncated\": stdout_capture.truncated,",
   "    \x7d",
   "",
   "",
   "def _child_main():",
   "    result_fd = _os.dup(1)",
   "    result_stdout = _os.fdopen(result_fd, \"w\")",
   "    devnull_fd = _os.open(_os.devnull, _os.O_WRONLY)",
   "    _os.dup2(devnull_fd, 1)",
   "    _os.close(devnull_fd)",
   "",
   "    stdout_capture = _BoundedStdout(_USER_STDOUT_LIMIT)",
   "    _sys.stdout = stdout_capture",
   "",
   "    try:",
   "        payload = _JSON_LOADS(_sys.stdin.read())",
   "        if payload.get(\"mode\") == \"preflight\":",
   "            result = _child_preflight(payload)",
   "        else:",
   "            result = _child_case(payload, stdout_capture)",
   "    except BaseException:",
   "        error, truncated = _truncate_text(_TRACEBACK_FORMAT_EXC(), _CASE_ERROR_LIMIT)",
   "        result = \x7b\"status\": \"runtime_error\", \"error\": error\x7d",
   "        if truncated:",
   "            result[\"error_truncated\"] = True",
   "",
   "    result_stdout.write(_JSON_DUMPS(result, allow_nan=False))",
   "    result_stdout.flush()",
   "",
   "",
   "def _script_path():",
   "    return _os.path.abspath(globals().get(\"__file__\", _sys.argv[0]))",
   "",
   "",
   "def _run_child(payload):",
   "    try:",
   "        process = _subprocess.Popen(",
   "            [_sys.executable, _script_path(), \"--codeshare-child\"],",
   "            stdin=_subprocess.PIPE,",
   "            stdout=_subprocess.PIPE,",
   "            stderr=_subprocess.PIPE,",
   "            text=True,",
   "        )",
   "        stdout, stderr = process.communicate(",
   "            _JSON_DUMPS(payload, allow_nan=False),",
   "            timeout=_CHILD_TIMEOUT_SECONDS,",
   "        )",
   "    except _subprocess.TimeoutExpired:",
   "        process.kill()",
   "        stdout, stderr = process.communicate()",
   "        return \x7b",
   "            \"status\": \"child_error\",",
   "            \"error\": \"Execution process timed out.\",",
   "            \"stderr\": stderr,",
   "        \x7d",
   "    except BaseException:",
   "        return \x7b",
   "            \"status\": \"child_error\",",
   "            \"error\": _TRACEBACK_FORMAT_EXC(),",
   "            \"stderr\": \"\",",
   "        \x7d",
   "",
   "    if process.returncode != 0:",
   "        return \x7b",
   "            \"status\": \"child_error\",",
   "            \"error\": \"Execution process exited unexpectedly.\",",
   "            \"stderr\": stderr,",
   "        \x7d",
   "",
   "    if len(stdout) > _HARNESS_PAYLOAD_LIMIT:",
   "        return \x7b",
   "            \"status\": \"child_error\",",
   "            \"error\": \"Execution process produced too much harness output.\",",
   "            \"stderr\": stderr,",
   "        \x7d",
   "",
   "    try:",
   "        return _JSON_LOADS(stdout)",
   "    except BaseException:",
   "        return \x7b",
   "            \"status\": \"child_error\",",
   "            \"error\": \"Execution process returned invalid harness output.\",",
   "            \"stderr\": stderr,",
   "        \x7d",
   "",
   "",
   "def _emit_tagged_payload(start_tag, end_tag, payload):",
   "    _sys.stdout.write(start_tag + \"\\n\")",
   "    _sys.stdout.write(_JSON_DUMPS(payload, allow_nan=False))",
   "    _sys.stdout.write(\"\\n\" + end_tag + \"\\n\")",
   "    _sys.stdout.flush()",
   "",
   "",
   "def _emit_compilation_error(error):",
   "    _emit_tagged_payload(",
   "        \"===HARNESS_COMPILATION_ERROR_\" + _NONCE + \"===\",",
   "        \"===END_HARNESS_COMPILATION_ERROR_\" + _NONCE + \"===\",",
   "        \x7b\"error\": error\x7d,",
   "    )",
   "",
   "",
   "def _emit_runtime_error(error):",
   "    _emit_tagged_payload(",
   "        \"===HARNESS_RUNTIME_ERROR_\" + _NONCE + \"===\",",
   "        \"===END_HARNESS_RUNTIME_ERROR_\" + _NONCE + \"===\",",
   "        \x7b\"error\": error\x7d,",
   "    )",
   "",
   "",
   "def _emit_result(results, stdout_capture):",
   "    payload = \x7b",
   "        \"results\": results,",
   "        \"userStdout\": stdout_capture.getvalue(),",
   "    \x7d",
   "    if stdout_capture.truncated:",
   "        payload[\"metadata\"] = \x7b\"userStdoutTruncated\": True\x7d",
   "    _emit_tagged_payload(",
   "        \"===HARNESS_RESULT_\" + _NONCE + \"===\",",
   "        \"===END_HARNESS_RESULT_\" + _NONCE + \"===\",",
   "        payload,",
   "    )",
   "",
   "",
   "def _handle_preflight_failure(result):",
   "    error = result.get(\"error\", \"Execution failed before running test cases.\")",
   "    if result.get(\"status\") == \"syntax_error\":",
   "        _emit_compilation_error(error)",
   "        return True",
   "    if result.get(\"status\") in \x7b\"runtime_error\", \"child_error\"\x7d:",
   "        _emit_runtime_error(error)",
   "        return True",
   "    return False",
   "",
   "",
   "def _parent_main():",
   "    preflight = _run_child(\x7b\"mode\": \"preflight\", \"user_code\": _USER_CODE\x7d)",
   "    if _handle_preflight_failure(preflight):",
   "        return",
   "",
   "    user_stdout = _BoundedStdout(_USER_STDOUT_LIMIT)",
   "    results = []",
   "",
   "    for index, test_case in enumerate(_TEST_CASES):",
   "        child_result = _run_child(",
   "            \x7b",
   "                \"mode\": \"case\",",
   "                \"index\": index,",
   "                \"input\": test_case[\"input\"],",
   "                \"method_name\": _METHOD_NAME,",
   "                \"user_code\": _USER_CODE,",
   "            \x7d",
   "        )",
   "        if child_result.get(\"status\") == \"ok\":",
   "            results.append(child_result[\"result\"])",
   "            user_stdout.write(child_result.get(\"user_stdout\", \"\"))",
   "            if child_result.get(\"user_stdout_truncated\"):",
   "                user_stdout.truncated = True",
   "            continue",
   "",
   "        results.append(",
   "            _child_failure_result(",
   "                index,",
   "                child_result.get(\"error\", \"Execution process failed.\"),",
   "            )",
   "        )",
   "",
   "    _emit_result(results, user_stdout)",
   "",
   "",
   "if len(_sys.argv) > 1 and _sys.argv[1] == \"--codeshare-child\":",
   "    _child_main()",
   "else:",
   "    _parent_main()"]

/-- The template with given texts at the seven places. -/
def fillTemplate (userStdoutLimit caseErrorLimit harnessPayloadLimit userCode testCases methodName
    nonce : JsString) : JsString :=
  templateHead ++ js "_USER_STDOUT_LIMIT = " ++ userStdoutLimit ++
    newline :: js "_CASE_ERROR_LIMIT = " ++ caseErrorLimit ++
    newline :: js "_HARNESS_PAYLOAD_LIMIT = " ++ harnessPayloadLimit ++
    newline :: pythonLines ["_CHILD_TIMEOUT_SECONDS = 10"] ++ js "_USER_CODE = " ++ userCode ++
    newline :: js "_TEST_CASES = " ++ testCases ++
    newline :: js "_METHOD_NAME = " ++ methodName ++
    newline :: js "_NONCE = " ++ nonce ++ templateTail

def pythonHarnessTemplate : JsString :=
  fillTemplate userStdoutLimitMark caseErrorLimitMark harnessPayloadLimitMark userCodeMark
    testCasesMark methodNameMark nonceMark

/-! ## Filling it -/

/-- EXECUTION_OUTPUT_LIMITS. -/
def userStdoutChars : ℕ := 16 * 1024
def caseErrorChars : ℕ := 8 * 1024
def harnessPayloadChars : ℕ := 256 * 1024

/-- One entry of `testCaseInputs`: an object whose only member is `input`. -/
structure TestCaseInput where
  input : List (JsString × Json)

def TestCaseInput.toJson (testCase : TestCaseInput) : Json := .obj [(js "input", .obj testCase.input)]

def testCasesJson (testCaseInputs : List TestCaseInput) : Json :=
  .arr (testCaseInputs.map TestCaseInput.toJson)

def buildPythonHarness (userCode : JsString) (testCaseInputs : List TestCaseInput)
    (methodName nonce : JsString) : JsString :=
  let s := replace pythonHarnessTemplate userCodeMark (Json.str userCode).stringify
  let s := replace s testCasesMark (testCasesJson testCaseInputs).stringify
  let s := replace s methodNameMark (Json.str methodName).stringify
  let s := replace s nonceMark (Json.str nonce).stringify
  let s := replace s userStdoutLimitMark (digitUnits userStdoutChars)
  let s := replace s caseErrorLimitMark (digitUnits caseErrorChars)
  replace s harnessPayloadLimitMark (digitUnits harnessPayloadChars)

/-- The template with each placeholder replaced by its own value and nothing else changed. -/
def exactScript (userCode : JsString) (testCaseInputs : List TestCaseInput)
    (methodName nonce : JsString) : JsString :=
  fillTemplate (digitUnits userStdoutChars) (digitUnits caseErrorChars)
    (digitUnits harnessPayloadChars) (Json.str userCode).stringify
    (testCasesJson testCaseInputs).stringify (Json.str methodName).stringify
    (Json.str nonce).stringify

end CodeShare.Harness
