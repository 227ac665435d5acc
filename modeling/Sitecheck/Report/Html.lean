import Sitecheck.Report.Basic
import Sitecheck.Text.Optional

/-!
# Reports as web pages

A report shows the counts of a run and one block for each result.  The block of
a failed test shows what was made of the failure and the message itself.
-/

namespace Sitecheck.Report

def statusMark : Status → String
  | .passed => "✓"
  | .failed => "✗"
  | .skipped => "⊘"
  | .pending | .running => "?"

def errorBlock (result : TestResult) (analysis : Json) : String :=
  "
                    <div class=\"error-details\">
                        <h4>AI Analysis</h4>
                        <p>" ++ analysis.display ++ "</p>
                        <h4>Error Message</h4>
                        <pre>" ++ (firstText result.error none).getD "No error message" ++ "</pre>
                    </div>
                "

def resultBlock (analyses : List (String × Json)) (result : TestResult) : String :=
  let errors :=
    match result.status with
    | .failed =>
      errorBlock result ((Fields.get? result.testId analyses).getD (.str "No summary available"))
    | _ => ""
  "
                <div class=\"test-result " ++ result.status.name ++ "\">
                    <div class=\"result-header\">
                        <span class=\"status-icon\">" ++ statusMark result.status ++ "</span>
                        <span class=\"test-name\">" ++ result.testId ++ "</span>
                        <span class=\"duration\">" ++ Json.displayInt result.duration ++ "ms</span>
                    </div>
                    " ++ errors ++ "
                </div>
            "

def passRate (passed total : Int) : Except Fault String :=
  if total ≤ 0 then .ok (fixedText 1 (.zero false))
  else
    match Binary64.ofQuotient? passed total with
    | some share => .ok (fixedText 1 (share.mul (Binary64.ofSigned 100 1)))
    | none => .error .overflow

def pageText (run : TestRun) (passRate : String) (blocks : List String) : String :=
  "<!DOCTYPE html>
<html lang=\"en\">
<head>
    <meta charset=\"UTF-8\">
    <meta name=\"viewport\" content=\"width=device-width, initial-scale=1.0\">
    <title>Test Report - " ++ run.id ++ "</title>
    <style>
        * \x7b
            margin: 0;
            padding: 0;
            box-sizing: border-box;
        \x7d

        body \x7b
            font-family: -apple-system, BlinkMacSystemFont, 'Segoe UI', Roboto, Oxygen, Ubuntu, Cantarell, sans-serif;
            line-height: 1.6;
            color: #333;
            background: #f5f5f5;
            padding: 20px;
        \x7d

        .container \x7b
            max-width: 1200px;
            margin: 0 auto;
            background: white;
            border-radius: 8px;
            box-shadow: 0 2px 4px rgba(0,0,0,0.1);
            overflow: hidden;
        \x7d

        .header \x7b
            background: linear-gradient(135deg, #667eea 0%, #764ba2 100%);
            color: white;
            padding: 30px;
        \x7d

        .header h1 \x7b
            font-size: 28px;
            margin-bottom: 10px;
        \x7d

        .header .meta \x7b
            opacity: 0.9;
            font-size: 14px;
        \x7d

        .summary \x7b
            display: grid;
            grid-template-columns: repeat(auto-fit, minmax(200px, 1fr));
            gap: 20px;
            padding: 30px;
            background: #fafafa;
            border-bottom: 1px solid #eee;
        \x7d

        .stat \x7b
            text-align: center;
        \x7d

        .stat-value \x7b
            font-size: 36px;
            font-weight: bold;
            margin-bottom: 5px;
        \x7d

        .stat-label \x7b
            color: #666;
            font-size: 14px;
            text-transform: uppercase;
            letter-spacing: 1px;
        \x7d

        .stat.passed .stat-value \x7b color: #10b981; \x7d
        .stat.failed .stat-value \x7b color: #ef4444; \x7d
        .stat.skipped .stat-value \x7b color: #f59e0b; \x7d

        .results \x7b
            padding: 30px;
        \x7d

        .results h2 \x7b
            margin-bottom: 20px;
            font-size: 22px;
            color: #333;
        \x7d

        .test-result \x7b
            border: 1px solid #e5e7eb;
            border-radius: 6px;
            margin-bottom: 15px;
            overflow: hidden;
        \x7d

        .result-header \x7b
            display: flex;
            align-items: center;
            padding: 15px;
            background: #fff;
            cursor: pointer;
            transition: background 0.2s;
        \x7d

        .result-header:hover \x7b
            background: #f9fafb;
        \x7d

        .status-icon \x7b
            font-size: 20px;
            margin-right: 12px;
            width: 24px;
            text-align: center;
        \x7d

        .test-name \x7b
            flex: 1;
            font-weight: 500;
        \x7d

        .duration \x7b
            color: #6b7280;
            font-size: 14px;
        \x7d

        .test-result.passed .result-header \x7b
            border-left: 4px solid #10b981;
        \x7d

        .test-result.failed .result-header \x7b
            border-left: 4px solid #ef4444;
        \x7d

        .test-result.skipped .result-header \x7b
            border-left: 4px solid #f59e0b;
        \x7d

        .error-details \x7b
            padding: 15px;
            background: #fef2f2;
            border-top: 1px solid #fee2e2;
        \x7d

        .error-details h4 \x7b
            color: #991b1b;
            margin-bottom: 8px;
            font-size: 14px;
        \x7d

        .error-details p \x7b
            color: #7f1d1d;
            margin-bottom: 15px;
            line-height: 1.5;
        \x7d

        .error-details pre \x7b
            background: white;
            border: 1px solid #fecaca;
            border-radius: 4px;
            padding: 12px;
            overflow-x: auto;
            font-size: 13px;
            color: #991b1b;
        \x7d

        .footer \x7b
            text-align: center;
            padding: 20px;
            color: #6b7280;
            font-size: 14px;
            border-top: 1px solid #eee;
        \x7d
    </style>
</head>
<body>
    <div class=\"container\">
        <div class=\"header\">
            <h1>Test Report</h1>
            <div class=\"meta\">
                <div>Run ID: " ++ run.id ++ "</div>
                <div>Generated: " ++ run.finishedAt ++ "</div>
            </div>
        </div>

        <div class=\"summary\">
            <div class=\"stat\">
                <div class=\"stat-value\">" ++ Json.displayInt run.total ++ "</div>
                <div class=\"stat-label\">Total Tests</div>
            </div>
            <div class=\"stat passed\">
                <div class=\"stat-value\">" ++ Json.displayInt run.passed ++ "</div>
                <div class=\"stat-label\">Passed</div>
            </div>
            <div class=\"stat failed\">
                <div class=\"stat-value\">" ++ Json.displayInt run.failed ++ "</div>
                <div class=\"stat-label\">Failed</div>
            </div>
            <div class=\"stat skipped\">
                <div class=\"stat-value\">" ++ Json.displayInt run.skipped ++ "</div>
                <div class=\"stat-label\">Skipped</div>
            </div>
            <div class=\"stat\">
                <div class=\"stat-value\">" ++ passRate ++ "%</div>
                <div class=\"stat-label\">Pass Rate</div>
            </div>
            <div class=\"stat\">
                <div class=\"stat-value\">" ++ Json.displayInt run.duration ++ "ms</div>
                <div class=\"stat-label\">Duration</div>
            </div>
        </div>

        <div class=\"results\">
            <h2>Test Results</h2>
            " ++ Text.join "\n" blocks ++ "
        </div>

        <div class=\"footer\">
            Generated by QAsmith - AI-Powered E2E Testing
        </div>
    </div>
</body>
</html>"

def html (run : TestRun) (analyses : List (String × Json)) : Except Fault String := do
  return pageText run (← passRate run.passed run.total) (run.results.map (resultBlock analyses))

end Sitecheck.Report
